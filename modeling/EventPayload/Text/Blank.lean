/-!
# Blank characters

White space in the sense of the Unicode property `White_Space`: twenty-five code points, most of
them outside ASCII.

* `blank` — the characters of the table `blanks`.
* `trim` — a text without the blanks at its two ends.
* `isBlank` — a text of nothing but blanks.

`blank_of_isWhitespace` ties the table to the four ASCII blanks that the core library knows.
-/

namespace EventPayload.Text

/-- **The table.**  The code points that have the Unicode property `White_Space`. -/
def blanks : List (Nat × Nat) :=
  [(0x09, 0x0D), (0x20, 0x20), (0x85, 0x85), (0xA0, 0xA0), (0x1680, 0x1680), (0x2000, 0x200A),
    (0x2028, 0x2029), (0x202F, 0x202F), (0x205F, 0x205F), (0x3000, 0x3000)]

/-- Whether a character is white space. -/
def blank (c : Char) : Bool :=
  blanks.any fun range => range.1 ≤ c.toNat && c.toNat ≤ range.2

/-- The characters without the blanks in front of the first and behind the last other one. -/
def trimChars (cs : List Char) : List Char :=
  ((cs.dropWhile blank).reverse.dropWhile blank).reverse

def trim (s : String) : String :=
  String.ofList (trimChars s.toList)

/-- A text of blanks only; the empty text is one. -/
def isBlank (s : String) : Bool :=
  s.toList.all blank

/-- Every blank that the core library knows is in the table. -/
theorem blank_of_isWhitespace {c : Char} (h : c.isWhitespace) : blank c := by
  simp only [Char.isWhitespace, Bool.or_eq_true, decide_eq_true_eq] at h
  rcases h with ((rfl | rfl) | rfl) | rfl <;> decide

end EventPayload.Text
