/-!
# Splitting a text

A text is split at every separator. The pieces between them may be empty, and there is one more of
them than there are separators, so that nothing but the separators is lost.
-/

namespace MailFilter.Text

/-- The pieces of a list between the members that satisfy `p`. -/
def pieces {α : Type} (p : α → Bool) : List α → List (List α)
  | [] => [[]]
  | x :: xs =>
    if p x then [] :: pieces p xs
    else
      match pieces p xs with
      | [] => [[x]]
      | piece :: others => (x :: piece) :: others

/-- The pieces of a text between the characters that satisfy `p`. -/
def split (p : Char → Bool) (text : String) : List String :=
  (pieces p text.toList).map String.ofList

end MailFilter.Text
