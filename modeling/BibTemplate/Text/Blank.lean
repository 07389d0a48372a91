/-!
# Blank characters, trimming and words

A character is blank when it has the Unicode property White_Space. Trimming
removes blank characters from both ends and nowhere else, and the words of a
text are its maximal runs of characters that are not blank.
-/
namespace BibTemplate.Text

/-- The twenty-five characters with the Unicode property White_Space. -/
def isBlank (c : Char) : Bool :=
  let n := c.toNat
  (9 ≤ n && n ≤ 13) || n == 0x20 || n == 0x85 || n == 0xA0 || n == 0x1680 ||
    (0x2000 ≤ n && n ≤ 0x200A) || n == 0x2028 || n == 0x2029 || n == 0x202F ||
    n == 0x205F || n == 0x3000

/-- Drops the characters that satisfy `p` from both ends. -/
def strip (p : Char → Bool) (s : List Char) : List Char :=
  ((s.dropWhile p).reverse.dropWhile p).reverse

/-- Drops the blank characters from both ends. -/
def trim (s : List Char) : List Char :=
  strip isBlank s

/-- The maximal runs of characters that are not blank, in order. -/
def words (s : List Char) : List (List Char) :=
  (s.splitOnP isBlank).filter fun w => !w.isEmpty

@[simp] theorem strip_nil (p : Char → Bool) : strip p [] = [] := rfl

@[simp] theorem trim_nil : trim [] = [] := rfl

end BibTemplate.Text
