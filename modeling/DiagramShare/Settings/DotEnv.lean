import DiagramShare.Settings.Environment

/-!
Files of variables, one a line: a name, an equals sign and a value, which may be quoted, may go on
over lines inside quotes, and may refer to other variables by a dollar sign. Reading stops at the
first line that is none of this; the variables before it count. A file never replaces a variable
that the environment has.
-/
namespace DiagramShare.Settings.DotEnv

open DiagramShare.Text

inductive LineState where
  | complete
  | escape
  | quoted (mark : Char)
  | quotedEscape (mark : Char)
  | blank
  | comment
  deriving DecidableEq

def LineState.next : LineState → Char → LineState
  | .blank, '#' => .comment
  | .blank, '\\' => .escape
  | .blank, '"' => .quoted '"'
  | .blank, '\'' => .quoted '\''
  | .blank, _ => .complete
  | .escape, _ => .complete
  | .complete, '\\' => .escape
  | .complete, '"' => .quoted '"'
  | .complete, '\'' => .quoted '\''
  | .complete, c => if isBlank c && c != '\n' && c != '\r' then .blank else .complete
  | .quoted mark, c =>
    if c = '\\' then .quotedEscape mark else if c = mark then .complete else .quoted mark
  | .quotedEscape mark, _ => .quoted mark
  | .comment, _ => .comment

/-- Cuts off one line, which goes on while its last line end stands inside quotes. The characters
come out in reverse; a comment is left out. -/
def cutLine (state : LineState) (read : List Char) : List Char → Option (List Char × List Char)
  | [] => if state = .complete ∨ startsComment read then some (read, []) else none
  | c :: rest =>
    match state.next c with
    | .comment => some (read, (rest.dropWhile (· != '\n')).drop 1)
    | next =>
      if c = '\n' ∧ next = .complete then some (c :: read, rest)
      else if c = '\n' ∧ startsComment (c :: read) then some ([], rest)
      else cutLine next (c :: read) rest
where
  /-- Whether what has been read is a comment. -/
  startsComment (read : List Char) : Bool := (read.reverse.dropWhile isBlank).head? == some '#'

def name? (cs : List Char) : Option (String × List Char) :=
  match cs with
  | c :: _ =>
    if c.isAlpha || c == '_' then
      let name := cs.takeWhile fun c => c.isAlphanum || c == '_' || c == '.'
      some (String.ofList name, cs.drop name.length)
    else none
  | [] => none

inductive Reference where
  | none
  | open_ (name : List Char)
  | braced (name : List Char)

/-- What the reader of a value has seen. -/
structure ValueState where
  strong : Bool := false
  weak : Bool := false
  escaped : Bool := false
  ending : Bool := false
  reference : Reference := .none
  output : List Char := []

def isNameChar (c : Char) : Bool := c.isAlphanum

def ValueState.finish (known : String → String) (s : ValueState) : Option String :=
  if s.strong || s.weak then none
  else match s.reference with
    | .braced _ => none
    | .open_ name => some (String.ofList s.output ++ known (String.ofList name))
    | .none => some (String.ofList s.output)

/-- Reads the characters of a value. `known` gives the value of a variable. -/
def value (known : String → String) (s : ValueState) : List Char → Option String
  | [] => s.finish known
  | c :: rest =>
    if s.ending then
      if c == ' ' || c == '\t' then value known s rest
      else if c == '#' then s.finish known
      else none
    else if s.escaped then
      let s := { s with escaped := false }
      if c == '\\' || c == '\'' || c == '"' || c == '$' || c == ' ' then
        value known { s with output := s.output ++ [c] } rest
      else if c == 'n' then value known { s with output := s.output ++ ['\n'] } rest
      else none
    else if s.strong then
      if c == '\'' then value known { s with strong := false } rest
      else value known { s with output := s.output ++ [c] } rest
    else
      match s.reference with
      | .open_ name =>
        if isNameChar c then value known { s with reference := .open_ (name ++ [c]) } rest
        else if c == '\x7b' && name.isEmpty then value known { s with reference := .braced [] } rest
        else
          let output := s.output ++ (known (String.ofList name)).toList
          if c == '$' then value known { s with reference := .open_ [], output := output } rest
          else value known { s with reference := .none, output := output ++ [c] } rest
      | .braced name =>
        if c == '\x7d' then
          let output := s.output ++ (known (String.ofList name)).toList
          value known { s with reference := .none, output := output } rest
        else value known { s with reference := .braced (name ++ [c]) } rest
      | .none =>
        if c == '$' then value known { s with reference := .open_ [] } rest
        else if s.weak then
          if c == '"' then value known { s with weak := false } rest
          else if c == '\\' then value known { s with escaped := true } rest
          else value known { s with output := s.output ++ [c] } rest
        else if c == '\'' then value known { s with strong := true } rest
        else if c == '"' then value known { s with weak := true } rest
        else if c == '\\' then value known { s with escaped := true } rest
        else if c == ' ' || c == '\t' then value known { s with ending := true } rest
        else value known { s with output := s.output ++ [c] } rest

inductive Line where
  | nothing
  | variable (name value : String)

def skipBlanks (cs : List Char) : List Char := cs.dropWhile isBlank

def line? (known : String → String) (cs : List Char) : Option Line :=
  let cs := skipBlanks (stripEndWhere isBlank cs)
  if cs.isEmpty || cs.head? == some '#' then some .nothing
  else do
    let (name, rest) ← name? cs
    let (name, rest) ← match skipBlanks rest with
      | '=' :: rest => some (name, rest)
      | rest =>
        if name = "export" then do
          let (name, rest) ← name? rest
          match skipBlanks rest with
          | '=' :: rest => some (name, rest)
          | _ => none
        else none
    let rest := skipBlanks rest
    if rest.isEmpty || rest.head? == some '#' then return .variable name ""
    let v ← value known {} rest
    return .variable name v

def extend : Nat → Environment → List (String × String) → List Char → Environment
  | 0, env, _, _ => env
  | _ + 1, env, _, [] => env
  | steps + 1, env, read, cs =>
    match cutLine .complete [] cs with
    | none => env
    | some (line, rest) =>
      let known (name : String) : String :=
        ((env.get? name).orElse fun _ => read.lookup name).getD ""
      match line? known line.reverse with
      | none => env
      | some .nothing => extend steps env read rest
      | some (.variable name v) =>
        let env := if (env.get? name).isSome then env else env ++ [(name, v)]
        extend steps env ((name, v) :: read) rest

def apply (file : String) (env : Environment) : Environment :=
  let cs := match file.toList with
    | '\ufeff' :: cs => cs
    | cs => cs
  extend (cs.length + 1) env [] cs

end DiagramShare.Settings.DotEnv
