/-!
# Blanks at the ends of a text

A header value, a mailbox and a folder name are trimmed: the characters with the Unicode property
White_Space are dropped from both ends.
-/

namespace MailFilter.Text

/-- The characters with the Unicode property White_Space. -/
def isBlank (c : Char) : Bool :=
  let n := c.toNat
  (9 ≤ n && n ≤ 13) || n == 0x20 || n == 0x85 || n == 0xA0 || n == 0x1680 ||
    (0x2000 ≤ n && n ≤ 0x200A) || n == 0x2028 || n == 0x2029 || n == 0x202F || n == 0x205F ||
    n == 0x3000

/-- The list without its last members that satisfy `p`. -/
def dropTrailing {α : Type} (p : α → Bool) (xs : List α) : List α :=
  (xs.reverse.dropWhile p).reverse

/-- The text without the blanks at its two ends. -/
def trim (s : String) : String :=
  String.ofList (dropTrailing isBlank (s.toList.dropWhile isBlank))

/-- What is dropped are blanks, and blanks only stand where they are dropped. -/
theorem dropTrailing_eq_self_of_last {α : Type} {p : α → Bool} {xs : List α} {x : α}
    (h : p x = false) : dropTrailing p (xs ++ [x]) = xs ++ [x] := by
  simp [dropTrailing, h]

end MailFilter.Text
