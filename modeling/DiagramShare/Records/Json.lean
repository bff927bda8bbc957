import DiagramShare.Json.Decode
import DiagramShare.Json.Value
import DiagramShare.Records.Basic

/-!
Rows as JSON objects. A row is written with its fields in order, without a deletion time while it
is live, and can be read back from what is written.
-/
namespace DiagramShare

open DiagramShare.Json DiagramShare.Json.Decode
open DiagramShare.Time (Instant)

def DocumentKind.decode : Decoder DocumentKind :=
  choice ["mermaid", "markdown"] DocumentKind.ofName?

def Permission.decode : Decoder Permission := choice ["view", "edit"] Permission.ofName?

def writeInstant (t : Instant) : Value := .string t.toText

def deletionEntry : Option Instant → List (String × Value)
  | none => []
  | some t => [("deleted_at", writeInstant t)]

namespace Workspace

def shape : Shape where
  name := "struct Workspace"
  fields := [
    field "id" int64, field "name" string, field "description" (nullable string),
    field "owner_id" int64, field "is_public" boolean, field "created_at" instant,
    field "updated_at" instant, field "deleted_at" (nullable instant)]

def decode : Decoder Workspace := fun o r => do
  let parts ← shape.parts o r
  return {
    id := ← parts.required "id" int64
    name := ← parts.required "name" string
    description := ← parts.optional "description" string
    owner := ← parts.required "owner_id" int64
    isPublic := ← parts.required "is_public" boolean
    createdAt := ← parts.required "created_at" instant
    updatedAt := ← parts.required "updated_at" instant
    deletedAt := ← parts.optional "deleted_at" instant }

def toValue (w : Workspace) : Value :=
  .object ([
    ("id", .int w.id), ("name", .string w.name),
    ("description", .optional .string w.description), ("owner_id", .int w.owner),
    ("is_public", .boolean w.isPublic), ("created_at", writeInstant w.createdAt),
    ("updated_at", writeInstant w.updatedAt)] ++ deletionEntry w.deletedAt)

end Workspace

namespace Document

def shape : Shape where
  name := "struct Document"
  fields := [
    field "id" int64, field "workspace_id" int64, field "title" string,
    field "type" DocumentKind.decode, field "slug" string, field "is_public" boolean,
    field "created_at" instant, field "updated_at" instant,
    field "deleted_at" (nullable instant)]

def decode : Decoder Document := fun o r => do
  let parts ← shape.parts o r
  return {
    id := ← parts.required "id" int64
    workspace := ← parts.required "workspace_id" int64
    title := ← parts.required "title" string
    kind := ← parts.required "type" DocumentKind.decode
    slug := ← parts.required "slug" string
    isPublic := ← parts.required "is_public" boolean
    createdAt := ← parts.required "created_at" instant
    updatedAt := ← parts.required "updated_at" instant
    deletedAt := ← parts.optional "deleted_at" instant }

def toEntries (d : Document) : List (String × Value) :=
  [("id", .int d.id), ("workspace_id", .int d.workspace), ("title", .string d.title),
    ("type", .string d.kind.name), ("slug", .string d.slug), ("is_public", .boolean d.isPublic),
    ("created_at", writeInstant d.createdAt), ("updated_at", writeInstant d.updatedAt)] ++
    deletionEntry d.deletedAt

def toValue (d : Document) : Value := .object d.toEntries

end Document

namespace Version

def shape : Shape where
  name := "struct DocumentVersion"
  fields := [
    field "id" int64, field "document_id" int64, field "content" string,
    field "version_number" int32, field "author_id" (nullable int64),
    field "change_description" (nullable string), field "created_at" instant]

def decode : Decoder Version := fun o r => do
  let parts ← shape.parts o r
  return {
    id := ← parts.required "id" int64
    document := ← parts.required "document_id" int64
    content := ← parts.required "content" string
    number := ← parts.required "version_number" int32
    author := ← parts.optional "author_id" int64
    note := ← parts.optional "change_description" string
    createdAt := ← parts.required "created_at" instant }

def toValue (v : Version) : Value :=
  .object [
    ("id", .int v.id), ("document_id", .int v.document), ("content", .string v.content),
    ("version_number", .int v.number), ("author_id", .optional .int v.author),
    ("change_description", .optional .string v.note), ("created_at", writeInstant v.createdAt)]

end Version

namespace Share

def shape : Shape where
  name := "struct SharedAccess"
  fields := [
    field "id" int64, field "document_id" int64, field "user_id" (nullable int64),
    field "access_token" string, field "permission" Permission.decode,
    field "expires_at" (nullable instant), field "created_at" instant,
    field "updated_at" instant, field "deleted_at" (nullable instant)]

def decode : Decoder Share := fun o r => do
  let parts ← shape.parts o r
  return {
    id := ← parts.required "id" int64
    document := ← parts.required "document_id" int64
    user := ← parts.optional "user_id" int64
    token := ← parts.required "access_token" string
    permission := ← parts.required "permission" Permission.decode
    expiresAt := ← parts.optional "expires_at" instant
    createdAt := ← parts.required "created_at" instant
    updatedAt := ← parts.required "updated_at" instant
    deletedAt := ← parts.optional "deleted_at" instant }

def toValue (s : Share) : Value :=
  .object ([
    ("id", .int s.id), ("document_id", .int s.document), ("user_id", .optional .int s.user),
    ("access_token", .string s.token), ("permission", .string s.permission.name),
    ("expires_at", .optional writeInstant s.expiresAt), ("created_at", writeInstant s.createdAt),
    ("updated_at", writeInstant s.updatedAt)] ++ deletionEntry s.deletedAt)

end Share

end DiagramShare
