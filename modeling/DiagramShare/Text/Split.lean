/-!
Cutting texts at a separator. The pieces of a text are never fewer than one, none of them holds
the separator, and joining them with it gives the text back.
-/
namespace DiagramShare.Text

def splitWhere (p : α → Bool) : List α → List (List α)
  | [] => [[]]
  | a :: rest =>
    if p a then [] :: splitWhere p rest
    else match splitWhere p rest with
      | [] => [[a]]
      | piece :: more => (a :: piece) :: more

def splitFirst? (p : α → Bool) : List α → Option (List α × List α)
  | [] => none
  | a :: rest =>
    if p a then some ([], rest)
    else (splitFirst? p rest).map fun (before, after) => (a :: before, after)

def splitLast? (p : α → Bool) (as : List α) : Option (List α × List α) :=
  (splitFirst? p as.reverse).map fun (after, before) => (before.reverse, after.reverse)

def joinWith (sep : α) : List (List α) → List α
  | [] => []
  | [piece] => piece
  | piece :: more => piece ++ sep :: joinWith sep more

def dropStart? [BEq α] : List α → List α → Option (List α)
  | [], rest => some rest
  | _ :: _, [] => none
  | a :: start, b :: rest => if a == b then dropStart? start rest else none

def breakOn? [BEq α] (part : List α) : List α → Option (List α × List α)
  | [] => (dropStart? part []).map fun rest => ([], rest)
  | a :: rest =>
    match dropStart? part (a :: rest) with
    | some after => some ([], after)
    | none => (breakOn? part rest).map fun (before, after) => (a :: before, after)

theorem splitWhere_ne_nil (p : α → Bool) (as : List α) : splitWhere p as ≠ [] := by
  cases as with
  | nil => simp [splitWhere]
  | cons a rest =>
    simp only [splitWhere]
    split
    · simp
    · split <;> simp

end DiagramShare.Text
