import RecordSearch.Text.Trim

/-!
A text as runs of blanks and of other characters. The runs without blanks are its words, and
a text can be split at every word of one spelling, as a whole word only.
-/

set_option autoImplicit false

namespace RecordSearch.Text

/-- The longest stretches of blanks only and of non-blanks only, in order. -/
def runs (t : List Char) : List (List Char) := t.splitBy fun a b => isBlank a == isBlank b

def isWord (run : List Char) : Bool := run.all fun c => !isBlank c

def words (t : List Char) : List (List Char) := (runs t).filter isWord

/-- The trimmed parts of a text before, between and after its words `w`. -/
def splitAtWord (w t : List Char) : List (List Char) :=
  ((runs t).splitOnP fun run => isWord run && run == w).map fun part => trim part.flatten

theorem splitAtWord_ne_nil (w t : List Char) : splitAtWord w t ≠ [] := by
  simp [splitAtWord, List.splitOnP_ne_nil]

end RecordSearch.Text
