import BibTemplate.Text.Blank
import BibTemplate.Text.Alphanumeric

/-!
# The words of a title

Capitalizing a title changes the case of its ASCII letters and leaves everything
between the words as it is. The significant word of a title is the first one that
has four characters or more and is not a stop word, and failing that the first word
of all. Punctuation around a word does not count, and stop words are recognised in
either case of their ASCII letters.
-/
namespace BibTemplate.Filter

/-- Words that say nothing about a title. -/
def stopWords : List String :=
  ["the", "a", "an", "of", "in", "on", "and", "or", "for", "to", "with", "at", "by", "from",
    "as", "is", "into", "about", "over", "under", "this", "that", "its"]

def isStopWord (w : List Char) : Bool :=
  stopWords.any fun s => s.toList == w.map Char.toLower

/-- The words of a title without the punctuation around them; a word of punctuation
alone is dropped. -/
def bareWords (s : List Char) : List (List Char) :=
  ((Text.words s).map (Text.strip fun c => !Text.isAlphanumeric c)).filter fun w => !w.isEmpty

/-- Whether a word can stand for its title. -/
def isSignificant (w : List Char) : Bool :=
  4 ≤ w.length && !isStopWord w

/-- The significant word of a title, empty if the title has no words. -/
def titleWord (s : List Char) : List Char :=
  let ws := bareWords s
  ((ws.find? isSignificant).or ws.head?).getD []

/-- Upper case for the first letter of every word and lower case for the others;
`atStart` says whether the text begins a word. -/
def capitalizeFrom (atStart : Bool) : List Char → List Char
  | [] => []
  | c :: cs =>
    if Text.isBlank c then c :: capitalizeFrom true cs
    else (if atStart then c.toUpper else c.toLower) :: capitalizeFrom false cs

end BibTemplate.Filter
