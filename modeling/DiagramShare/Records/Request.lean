import DiagramShare.Records.Json

/-!
What clients ask for: the contents of new rows and changes to old ones. In a change an absent field
keeps its value; the expiry of a share may also be given as null, which removes it.
-/
namespace DiagramShare

open DiagramShare.Json DiagramShare.Json.Decode
open DiagramShare.Time (Instant)

structure WorkspaceRequest where
  name : String
  description : Option String
  isPublic : Option Bool

structure WorkspaceUpdate where
  name : Option String
  description : Option String
  isPublic : Option Bool

structure DocumentRequest where
  title : String
  kind : DocumentKind
  slug : Option String
  isPublic : Option Bool
  content : Option String

structure DocumentUpdate where
  title : Option String
  kind : Option DocumentKind
  slug : Option String
  isPublic : Option Bool

structure VersionRequest where
  content : String
  note : Option String

structure ShareRequest where
  user : Option Int
  permission : Permission
  expiresAt : Option Instant

/-- The expiry is absent, or null, or an instant. -/
structure ShareUpdate where
  permission : Option Permission
  expiresAt : Option (Option Instant)

namespace WorkspaceRequest

def shape : Shape where
  name := "struct CreateWorkspaceRequest"
  fields := [
    field "name" string, field "description" (nullable string),
    field "is_public" (nullable boolean)]

def decode : Decoder WorkspaceRequest := fun o r => do
  let parts ← shape.parts o r
  return {
    name := ← parts.required "name" string
    description := ← parts.optional "description" string
    isPublic := ← parts.optional "is_public" boolean }

end WorkspaceRequest

namespace WorkspaceUpdate

def shape : Shape where
  name := "struct UpdateWorkspaceRequest"
  fields := [
    field "name" (nullable string), field "description" (nullable string),
    field "is_public" (nullable boolean)]

def decode : Decoder WorkspaceUpdate := fun o r => do
  let parts ← shape.parts o r
  return {
    name := ← parts.optional "name" string
    description := ← parts.optional "description" string
    isPublic := ← parts.optional "is_public" boolean }

end WorkspaceUpdate

namespace DocumentRequest

def shape : Shape where
  name := "struct CreateDocumentRequest"
  fields := [
    field "title" string, field "type" DocumentKind.decode, field "slug" (nullable string),
    field "is_public" (nullable boolean), field "content" (nullable string)]

def decode : Decoder DocumentRequest := fun o r => do
  let parts ← shape.parts o r
  return {
    title := ← parts.required "title" string
    kind := ← parts.required "type" DocumentKind.decode
    slug := ← parts.optional "slug" string
    isPublic := ← parts.optional "is_public" boolean
    content := ← parts.optional "content" string }

end DocumentRequest

namespace DocumentUpdate

def shape : Shape where
  name := "struct UpdateDocumentRequest"
  fields := [
    field "title" (nullable string), field "type" (nullable DocumentKind.decode),
    field "slug" (nullable string), field "is_public" (nullable boolean)]

def decode : Decoder DocumentUpdate := fun o r => do
  let parts ← shape.parts o r
  return {
    title := ← parts.optional "title" string
    kind := ← parts.optional "type" DocumentKind.decode
    slug := ← parts.optional "slug" string
    isPublic := ← parts.optional "is_public" boolean }

end DocumentUpdate

namespace VersionRequest

def shape : Shape where
  name := "struct CreateVersionRequest"
  fields := [field "content" string, field "change_description" (nullable string)]

def decode : Decoder VersionRequest := fun o r => do
  let parts ← shape.parts o r
  return {
    content := ← parts.required "content" string
    note := ← parts.optional "change_description" string }

end VersionRequest

namespace ShareRequest

def shape : Shape where
  name := "struct CreateShareRequest"
  fields := [
    field "user_id" (nullable int64), field "permission" Permission.decode,
    field "expires_at" (nullable instant)]

def decode : Decoder ShareRequest := fun o r => do
  let parts ← shape.parts o r
  return {
    user := ← parts.optional "user_id" int64
    permission := ← parts.required "permission" Permission.decode
    expiresAt := ← parts.optional "expires_at" instant }

end ShareRequest

namespace ShareUpdate

def shape : Shape where
  name := "struct UpdateShareRequest"
  fields := [
    field "permission" (nullable Permission.decode),
    omissible "expires_at" (nullable instant)]

def decode : Decoder ShareUpdate := fun o r => do
  let parts ← shape.parts o r
  let expiry : Decoder (Option (Option Instant)) := fun o r => (nullable instant o r).map some
  return {
    permission := ← parts.optional "permission" Permission.decode
    expiresAt := ← parts.withDefault "expires_at" expiry none }

end ShareUpdate

end DiagramShare
