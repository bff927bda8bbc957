import DiagramShare.Codec.Form
import DiagramShare.Proofs.Filing

/-! Addresses of attachments. The address of an object is a base and its key, with nothing escaped. Read
by the rules of addresses, it names the object again unless the key holds what these rules take for
something else: the start of a fragment, or an escape. -/
namespace DiagramShare.Codec.Form

open DiagramShare.Text
open Utf8 (encode)

def startsPair : List Char → Bool
  | h :: l :: _ => (hexValue? h).isSome && (hexValue? l).isSome
  | _ => false

/-- Whether a text has a percent sign with two digits of base sixteen behind it. -/
def hasEscape : List Char → Bool
  | [] => false
  | c :: rest => (c == '%' && startsPair rest) || hasEscape rest

theorem hasEscape_append {as : List Char} (plain : ∀ c ∈ as, c ≠ '%') (rest : List Char) :
    hasEscape (as ++ rest) = hasEscape rest := by
  induction as with
  | nil => rfl
  | cons c as ih =>
    have other : (c == '%') = false := by simpa using plain c List.mem_cons_self
    rw [List.cons_append, hasEscape, other, ih fun d hd => plain d (List.mem_cons_of_mem _ hd)]
    rfl

theorem encode_cons (c : Char) (cs : List Char) :
    encode (c :: cs) = String.utf8EncodeChar c ++ encode cs := rfl

theorem encode_append (as bs : List Char) : encode (as ++ bs) = encode as ++ encode bs :=
  List.flatMap_append

theorem utf8EncodeChar_low {c : Char} (low : c.toNat < 128) :
    String.utf8EncodeChar c = [UInt8.ofNat c.toNat] := by
  have few : c.toNat ≤ 127 := Nat.le_of_lt_succ low
  simp [String.utf8EncodeChar, few]

theorem utf8EncodeChar_high {c : Char} (high : 128 ≤ c.toNat) :
    ∀ b ∈ String.utf8EncodeChar c, 128 ≤ b.toNat := by
  have many : ¬ c.val.toNat ≤ 127 := Nat.not_le.mpr high
  intro b listed
  simp only [String.utf8EncodeChar, many, if_false] at listed
  split at listed
  · simp at listed
    rcases listed with rfl | rfl <;> simp <;> omega
  · split at listed
    · simp at listed
      rcases listed with rfl | rfl | rfl <;> simp <;> omega
    · simp at listed
      rcases listed with rfl | rfl | rfl | rfl <;> simp <;> omega

theorem digit?_low {c : Char} (low : c.toNat < 128) :
    digit? (UInt8.ofNat c.toNat) = hexValue? c := by
  have size : (UInt8.ofNat c.toNat).toNat = c.toNat := by
    simp
    omega
  rw [digit?, size, Char.ofNat_toNat]

theorem hexValue?_high {c : Char} (high : 128 ≤ c.toNat) : hexValue? c = none := by
  unfold hexValue?
  simp only
  split
  · omega
  · split
    · omega
    · split
      · omega
      · rfl

theorem digit?_high {b : UInt8} (high : 128 ≤ b.toNat) : digit? b = none := by
  apply hexValue?_high
  have few := b.toNat_lt
  rw [Char.toNat_ofNat, if_pos]
  · exact high
  · unfold Nat.isValidChar
    omega

theorem percentDecode_ne {b : UInt8} (other : b ≠ 0x25) (rest : List UInt8) :
    percentDecode (b :: rest) = b :: percentDecode rest := by
  match rest with
  | [] => rfl
  | [_] => rfl
  | _ :: _ :: _ => simp [percentDecode, other]

theorem percentDecode_append {bs : List UInt8} (plain : ∀ b ∈ bs, b ≠ 0x25) (rest : List UInt8) :
    percentDecode (bs ++ rest) = bs ++ percentDecode rest := by
  induction bs with
  | nil => rfl
  | cons b bs ih =>
    rw [List.cons_append, percentDecode_ne (plain b List.mem_cons_self),
      ih fun c hc => plain c (List.mem_cons_of_mem _ hc), List.cons_append]

theorem percentDecode_slash (before after : List UInt8) :
    percentDecode (before ++ 0x2F :: after) =
      percentDecode before ++ 0x2F :: percentDecode after := by
  have slash : percentDecode (0x2F :: after) = 0x2F :: percentDecode after :=
    percentDecode_ne (by decide) after
  have digit : digit? 0x2F = none := by decide
  have two : ∀ a : UInt8, percentDecode (a :: 0x2F :: after) = a :: 0x2F :: percentDecode after := by
    intro a
    cases after with
    | nil => rfl
    | cons b after => simp [percentDecode, digit, slash]
  -- Along the decoder: it looks two bytes ahead, so the slash is met early in the first three cases.
  induction before using percentDecode.induct with
  | case1 => exact slash
  | case2 a => exact two a
  | case3 a b => simp [percentDecode, digit, two]
  | case4 a b c rest high low first second third ih => simp_all [percentDecode]
  | case5 a b c rest none ih => simp_all [percentDecode]

theorem length_percentDecode (bs : List UInt8) : (percentDecode bs).length ≤ bs.length := by
  induction bs using percentDecode.induct with
  | case1 => simp [percentDecode]
  | case2 => simp [percentDecode]
  | case3 => simp [percentDecode]
  | case4 a b c rest high low first second third ih =>
    simp_all [percentDecode]
    omega
  | case5 a b c rest none ih => simp_all [percentDecode]

theorem encode_digit (c : Char) (rest : List Char) :
    ∃ b bs, encode (c :: rest) = b :: bs ∧ digit? b = hexValue? c ∧
      ((hexValue? c).isSome = true → bs = encode rest) := by
  by_cases low : c.toNat < 128
  · refine ⟨UInt8.ofNat c.toNat, encode rest, ?_, digit?_low low, fun _ => rfl⟩
    rw [encode_cons, utf8EncodeChar_low low]
    rfl
  · have high := utf8EncodeChar_high (Nat.not_lt.mp low)
    obtain ⟨b, bs, bytes⟩ := List.exists_cons_of_ne_nil (String.utf8EncodeChar_ne_nil (c := c))
    rw [bytes] at high
    have none := hexValue?_high (Nat.not_lt.mp low)
    refine ⟨b, bs ++ encode rest, ?_, ?_, ?_⟩
    · rw [encode_cons, bytes, List.cons_append]
    · rw [none, digit?_high (high b List.mem_cons_self)]
    · simp [none]

theorem percentDecode_percent {rest : List Char} (clear : startsPair rest = false) :
    percentDecode (0x25 :: encode rest) = 0x25 :: percentDecode (encode rest) := by
  cases rest with
  | nil => rfl
  | cons h more =>
    obtain ⟨b, bs, bytes, digit, next⟩ := encode_digit h more
    rw [bytes]
    cases first : hexValue? h with
    | none =>
      rw [first] at digit
      cases bs <;> simp [percentDecode, digit]
    | some high =>
      obtain rfl := next (by rw [first]; rfl)
      cases more with
      | nil => rfl
      | cons l more =>
        obtain ⟨c, cs, bytes', digit', _⟩ := encode_digit l more
        have none : hexValue? l = none := by simpa [startsPair, first] using clear
        rw [bytes']
        simp [percentDecode, digit', none]

theorem percentDecode_cons {c : Char} {rest : List Char}
    (clear : (c == '%' && startsPair rest) = false) :
    percentDecode (encode (c :: rest)) = String.utf8EncodeChar c ++ percentDecode (encode rest) := by
  rw [encode_cons]
  by_cases percent : c = '%'
  · subst percent
    exact percentDecode_percent (by simpa using clear)
  · apply percentDecode_append
    rintro b listed rfl
    by_cases low : c.toNat < 128
    · rw [utf8EncodeChar_low low, List.mem_singleton] at listed
      have same := congrArg UInt8.toNat listed
      simp at same
      exact percent (Char.toNat_inj.mp (by simp; omega))
    · have high := utf8EncodeChar_high (Nat.not_lt.mp low) _ listed
      simp at high

theorem percentDecode_encode {cs : List Char} (plain : hasEscape cs = false) :
    percentDecode (encode cs) = encode cs := by
  induction cs with
  | nil => rfl
  | cons c rest ih =>
    rw [hasEscape, Bool.or_eq_false_iff] at plain
    rw [percentDecode_cons plain.1, ih plain.2, encode_cons]

theorem percentDecode_shorter {cs : List Char} (escaped : hasEscape cs = true) :
    (percentDecode (encode cs)).length < (encode cs).length := by
  induction cs with
  | nil => cases escaped
  | cons c rest ih =>
    by_cases clear : (c == '%' && startsPair rest) = false
    · rw [hasEscape, clear, Bool.false_or] at escaped
      rw [percentDecode_cons clear, encode_cons, List.length_append, List.length_append]
      exact Nat.add_lt_add_left (ih escaped) _
    · simp only [Bool.not_eq_false, Bool.and_eq_true, beq_iff_eq] at clear
      obtain ⟨rfl, pair⟩ := clear
      match rest with
      | [] => cases pair
      | [_] => cases pair
      | h :: l :: more =>
        simp only [startsPair, Bool.and_eq_true] at pair
        obtain ⟨b, bs, bytes, digit, next⟩ := encode_digit h (l :: more)
        obtain ⟨c, cs, bytes', digit', next'⟩ := encode_digit l more
        obtain rfl := next pair.1
        obtain rfl := next' pair.2
        have percent : String.utf8EncodeChar '%' = [0x25] := by decide
        obtain ⟨x, hx⟩ := Option.isSome_iff_exists.mp pair.1
        obtain ⟨y, hy⟩ := Option.isSome_iff_exists.mp pair.2
        have shorter := length_percentDecode (encode more)
        rw [encode_cons, percent, bytes, bytes']
        simp [percentDecode, digit, digit', hx, hy]
        omega

end DiagramShare.Codec.Form

namespace DiagramShare.Storage

open DiagramShare.Text
open DiagramShare.Codec (Form.percentDecode Form.hasEscape Utf8.encode Utf8.bytes)

/-- A character that a fragment or a query begins with. -/
def endsPath (c : Char) : Bool := c == '#' || c == '?'

/-- What an address names: it is cut where its path ends, and escapes are undone. -/
def named (address : List Char) : List UInt8 :=
  Form.percentDecode (Utf8.encode (address.takeWhile fun c => !endsPath c))

/-- What an address names below a base. -/
def namedBelow (base address : String) : Option (List UInt8) :=
  dropStart? (named base.toList ++ [0x2F]) (named address.toList)

theorem takeWhile_path {as : List Char} (plain : ∀ c ∈ as, endsPath c = false)
    (rest : List Char) : ((as ++ rest).takeWhile fun c => !endsPath c) =
      as ++ rest.takeWhile fun c => !endsPath c :=
  List.takeWhile_append_of_pos fun c listed => by simp [plain c listed]

theorem namedBelow_base {base : String} (plain : ∀ c ∈ base.toList, endsPath c = false)
    (key : String) : namedBelow base (base ++ "/" ++ key) = some (named key.toList) := by
  have whole : (base ++ "/" ++ key).toList = base.toList ++ '/' :: key.toList := by
    simp [String.toList_append]
  have all : base.toList.takeWhile (fun c => !endsPath c) = base.toList := by
    simpa using takeWhile_path plain []
  have cut : named (base ++ "/" ++ key).toList =
      named base.toList ++ [0x2F] ++ named key.toList := by
    rw [whole, named, named, named, all, takeWhile_path plain,
      List.takeWhile_cons_of_pos (by decide), Codec.Form.encode_append, List.append_assoc]
    exact Codec.Form.percentDecode_slash _ _
  rw [namedBelow, cut, dropStart?_eq_some]

theorem named_self (cs : List Char) :
    named cs = Utf8.encode cs ↔ (∀ c ∈ cs, endsPath c = false) ∧ Form.hasEscape cs = false := by
  constructor
  · intro same
    obtain ⟨more, split⟩ := List.takeWhile_prefix (fun c => !endsPath c) (l := cs)
    have size := congrArg List.length same
    have fewer := Codec.Form.length_percentDecode
      (Utf8.encode (cs.takeWhile fun c => !endsPath c))
    have sum := congrArg (fun cs => (Utf8.encode cs).length) split
    simp only [Codec.Form.encode_append, List.length_append] at sum
    rw [named] at size
    have nothing : more = [] := by
      cases more with
      | nil => rfl
      | cons c more =>
        have some := List.length_pos_iff.mpr (String.utf8EncodeChar_ne_nil (c := c))
        rw [Codec.Form.encode_cons, List.length_append] at sum
        omega
    rw [nothing, List.append_nil] at split
    rw [split] at size
    constructor
    · intro c listed
      rw [← split] at listed
      simpa using List.mem_takeWhile_imp listed
    · rw [← Bool.not_eq_true]
      intro escaped
      have shorter := Codec.Form.percentDecode_shorter escaped
      omega
  · rintro ⟨plain, clear⟩
    have all : cs.takeWhile (fun c => !endsPath c) = cs := by
      simpa using takeWhile_path plain []
    rw [named, all, Codec.Form.percentDecode_encode clear]

def isPlain (c : Char) : Bool := !endsPath c && c != '%'

theorem named_ofAsset (document : Int) (name : String) :
    named (Key.ofAsset document name).toList = Utf8.bytes (Key.ofAsset document name) ↔
      '#' ∉ (Key.segment name).toList ∧
        Form.hasEscape (Key.segment name).toList = false := by
  have before : ∀ c ∈ Key.root.toList ++ '/' :: ((toString document).toList ++ ['/']),
      endsPath c = false ∧ c ≠ '%' := by
    intro c listed
    have plain : isPlain c = true := by
      simp only [List.mem_append, List.mem_cons, List.not_mem_nil, or_false] at listed
      rcases listed with first | rfl | number | rfl
      · exact List.all_eq_true.mp (by decide) c first
      · decide
      · rcases Key.mem_toString number with digit | rfl
        · exact Key.of_digit (by decide) digit
        · decide
      · decide
    simpa [isPlain] using plain
  have query : ∀ c ∈ (Key.segment name).toList, c ≠ '?' := by
    rintro c listed rfl
    exact absurd (Key.segment_kept listed) (by decide)
  have whole : (Key.ofAsset document name).toList =
      (Key.root.toList ++ '/' :: ((toString document).toList ++ ['/'])) ++
        (Key.segment name).toList := by
    rw [Key.toList_ofAsset]
    simp
  rw [Utf8.bytes, named_self, whole,
    Codec.Form.hasEscape_append fun c listed => (before c listed).2]
  apply and_congr_left'
  constructor
  · intro plain hash
    exact absurd (plain _ (List.mem_append_right _ hash)) (by decide)
  · intro hash c listed
    rcases List.mem_append.mp listed with first | last
    · exact (before c first).1
    · have other : c ≠ '#' := fun same => hash (same ▸ last)
      simp [endsPath, other, query c last]

namespace Backend

/-- The settings that addresses begin with. -/
def addressed (b : Backend) : List String :=
  match b.driver with
  | .local => [b.settings.localStorage.publicUrl]
  | .ftp => [b.settings.sftp.publicUrl]
  | .s3 => [b.settings.s3.endpoint, b.settings.s3.bucket]

/-- What stands before the keys in addresses. -/
def base (b : Backend) : String :=
  match b.driver with
  | .local => String.ofList (stripEndWhere (· == '/') b.settings.localStorage.publicUrl.toList)
  | .ftp => String.ofList (stripEndWhere (· == '/') b.settings.sftp.publicUrl.toList)
  | .s3 => S3.endpoint b.settings.s3 ++ "/" ++ b.settings.s3.bucket

def behindBase (b : Backend) (key : String) : String :=
  match b.driver with
  | .ftp => Sftp.relative b.settings.sftp key
  | _ => key

variable {b : Backend} {key canonical : String}

theorem url_eq (accepted : Key.normalize key = .ok canonical) :
    b.url key = .ok (b.base ++ "/" ++ b.behindBase canonical) := by
  have canonical := Local.canonical_ok.mpr accepted
  unfold Backend.url base behindBase
  match b.driver with
  | .local => simp [Local.url, canonical, Except.map, joinUrl]
  | .ftp => simp [Sftp.url, canonical, Except.map, joinUrl]
  | .s3 =>
    simp only [S3.url, canonical, Except.map]
    rfl

theorem url_base (bare : b.driver = .ftp → Sftp.base b.settings.sftp = [])
    (accepted : Key.normalize key = .ok key) : b.url key = .ok (b.base ++ "/" ++ key) := by
  have whole : b.behindBase key = key := by
    unfold behindBase
    match driver : b.driver with
    | .local => rfl
    | .ftp => simp [Sftp.relative, bare driver]
    | .s3 => rfl
  rw [url_eq accepted, whole]

end Backend

theorem stripEndWhere_plain {text : String} (plain : ∀ c ∈ text.toList, endsPath c = false) :
    ∀ c ∈ (String.ofList (stripEndWhere (· == '/') text.toList)).toList, endsPath c = false := by
  intro c listed
  rw [String.toList_ofList] at listed
  have inside := (List.dropWhile_sublist _).subset (List.mem_reverse.mp listed)
  exact plain c (List.mem_reverse.mp inside)

theorem S3.endpoint_plain {s : Settings.S3} (plain : ∀ c ∈ s.endpoint.toList, endsPath c = false) :
    ∀ c ∈ (S3.endpoint s).toList, endsPath c = false := by
  have text := stripEndWhere_plain plain
  have schemes : ∀ c ∈ "https://".toList ++ "http://".toList, endsPath c = false := by simp [endsPath]
  unfold S3.endpoint
  intro c listed
  simp only at listed
  split at listed
  · exact text c listed
  · split at listed
    · rw [String.toList_append, List.mem_append] at listed
      rcases listed with scheme | rest
      · exact schemes c (List.mem_append_left _ scheme)
      · exact text c rest
    · rw [String.toList_append, List.mem_append] at listed
      rcases listed with scheme | rest
      · exact schemes c (List.mem_append_right _ scheme)
      · exact text c rest

theorem Backend.base_plain {b : Backend}
    (plain : ∀ text ∈ b.addressed, ∀ c ∈ text.toList, endsPath c = false) :
    ∀ c ∈ b.base.toList, endsPath c = false := by
  unfold addressed at plain
  unfold base
  match driver : b.driver with
  | .local =>
    simp only [driver, List.mem_singleton, forall_eq] at plain
    exact stripEndWhere_plain plain
  | .ftp =>
    simp only [driver, List.mem_singleton, forall_eq] at plain
    exact stripEndWhere_plain plain
  | .s3 =>
    simp only [driver, List.mem_cons, List.not_mem_nil, or_false, forall_eq_or_imp, forall_eq]
      at plain
    intro c listed
    simp only [String.toList_append, List.mem_append] at listed
    rcases listed with (first | slash) | last
    · exact S3.endpoint_plain plain.1 c first
    · rw [List.mem_singleton.mp slash]
      decide
    · exact plain.2 c last

end DiagramShare.Storage

namespace DiagramShare.Service

open DiagramShare.Access
open DiagramShare.Codec (Form.hasEscape Utf8.bytes)
open DiagramShare.Storage (Backend endsPath namedBelow)
open DiagramShare.Storage.Key (ofAsset segment)

theorem describe_url {σ : Type} {s : Store σ} {c : Conditions} {w w' : World σ} {key : String}
    {info : AssetInfo} (ends : (describe key).Ends s c w w' (.ok info)) :
    info.key = key ∧ w.backend.url key = .ok info.url := by
  obtain ⟨v, size, sized, rest⟩ := ends_bind_ok.mp ends
  obtain ⟨u, url, addressed, last⟩ := ends_bind_ok.mp rest
  obtain ⟨rfl, _⟩ := ends_storing.mp sized
  obtain ⟨_, same⟩ := ends_storing.mp addressed
  obtain ⟨_, told⟩ := ends_done.mp last
  cases told
  exact ⟨rfl, mapError_ok.mp same.symm⟩

/-- The address that an attachment is shown under is a base and its key. Read back, it names the key
just where the sanitized name has neither a number sign nor an escape, whatever the storage is. -/
theorem address_names (b : Backend)
    (plain : ∀ text ∈ b.addressed, ∀ c ∈ text.toList, endsPath c = false)
    (bare : b.driver = .ftp → Storage.Sftp.base b.settings.sftp = []) {document : Int} {name : String}
    (accepted : Storage.Key.normalize (ofAsset document name) = .ok (ofAsset document name)) :
    let key := ofAsset document name
    let address := b.base ++ "/" ++ key
    b.url key = .ok address ∧
    (∀ (σ : Type) (s : Store σ) c w w' info, w.backend = b →
      (describe key).Ends s c w w' (.ok info) → info.key = key ∧ info.url = address) ∧
    (namedBelow b.base address = some (Utf8.bytes key) ↔
      '#' ∉ (segment name).toList ∧ Form.hasEscape (segment name).toList = false) := by
  intro key address
  have url := Backend.url_base bare accepted
  refine ⟨url, ?_, ?_⟩
  · rintro σ s c w w' info rfl ends
    obtain ⟨named, told⟩ := describe_url ends
    exact ⟨named, Except.ok.inj (told.symm.trans url)⟩
  · rw [Storage.namedBelow_base (Backend.base_plain plain), Option.some.injEq,
      Storage.named_ofAsset]

theorem address_names_plan :
    let b := (Backend.opened {} "root").1
    let key := ofAsset 2 "50% plan?.png"
    b.url key = .ok (b.base ++ "/" ++ key) ∧
      namedBelow b.base (b.base ++ "/" ++ key) = some (Utf8.bytes key) := by
  intro b key
  have plain : ∀ text ∈ b.addressed, ∀ c ∈ text.toList, endsPath c = false := by
    have only : b.addressed = ["http://localhost:8000/storage"] := rfl
    simp [only, endsPath]
  have accepted : Storage.Key.normalize key = .ok key := by decide +kernel
  obtain ⟨url, _, names⟩ := address_names b plain nofun accepted
  exact ⟨url, names.mpr (by decide +kernel)⟩

/-- Names that are taken for something else: the addresses name other objects. With such a bucket,
no address names anything below its base. -/
theorem addresses_misread :
    let b := (Backend.opened {} "root").1
    let s3 := (Backend.opened { driver := .s3, s3 := { endpoint := "host", bucket := "a#b" } } "").1
    (Storage.Key.normalize (ofAsset 2 "a#b") = .ok (ofAsset 2 "a#b") ∧
      (b.url (ofAsset 2 "a#b")).map (namedBelow b.base) = .ok (some (Utf8.bytes (ofAsset 2 "a")))) ∧
    (Storage.Key.normalize (ofAsset 2 "%41") = .ok (ofAsset 2 "%41") ∧
      (b.url (ofAsset 2 "%41")).map (namedBelow b.base) = .ok (some (Utf8.bytes (ofAsset 2 "A")))) ∧
    (s3.url (ofAsset 2 "a")).map (namedBelow s3.base) = .ok none := by
  decide +kernel

end DiagramShare.Service
