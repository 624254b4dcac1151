/-!
# Text.Blank — white space and the words between it

White space is the property `White_Space` of Unicode, twenty-five characters.  A word is a longest run of characters
without it.
-/
namespace BranchChain
namespace Text

/-- **The property `White_Space`.** -/
def isBlank (c : Char) : Bool :=
  let n := c.toNat
  (9 ≤ n && n ≤ 13) || n == 0x20 || n == 0x85 || n == 0xa0 || n == 0x1680 || (0x2000 ≤ n && n ≤ 0x200a)
    || n == 0x2028 || n == 0x2029 || n == 0x202f || n == 0x205f || n == 0x3000

/-- Puts a word in front of others, unless it is empty. -/
def consWord (w : List Char) (ws : List (List Char)) : List (List Char) := if w.isEmpty then ws else w :: ws

/-- The run without separators that starts at once, and the runs after it. -/
def runs (sep : Char → Bool) : List Char → List Char × List (List Char)
  | [] => ([], [])
  | c :: cs =>
    let (w, ws) := runs sep cs
    if sep c then ([], consWord w ws) else (c :: w, ws)

/-- **The longest runs without separators**, in order. -/
def splitAt (sep : Char → Bool) (cs : List Char) : List (List Char) := consWord (runs sep cs).1 (runs sep cs).2

/-- **The words of a text**, in order. -/
def words (cs : List Char) : List (List Char) := splitAt isBlank cs

/-- A text without the white space at both its ends. -/
def trim (cs : List Char) : List Char := ((cs.dropWhile isBlank).reverse.dropWhile isBlank).reverse

theorem words_nil : words [] = [] := rfl

theorem words_blank (c : Char) (cs : List Char) (h : isBlank c) : words (c :: cs) = words cs := by
  simp [words, splitAt, runs, h, consWord]

end Text
end BranchChain
