/-!
# Quoted texts

What the notations for quoted texts have in common: where a body ends, and how escapes name a
character by number.

* `hexValue?`, `hexNumber?` — hexadecimal digits.
* `scalarChar?` — the character of a given number; surrogates have none.
* `untilQuote?` — cuts off a body at its closing quote.

A backslash in a body protects the character behind it, so that a quote does not end the body
there.
-/

namespace EventPayload.Text

/-! ## Numbers of characters -/

def hexValue? (c : Char) : Option Nat :=
  if c.isDigit then some (c.toNat - '0'.toNat)
  else if 'a' ≤ c ∧ c ≤ 'f' then some (c.toNat - 'a'.toNat + 10)
  else if 'A' ≤ c ∧ c ≤ 'F' then some (c.toNat - 'A'.toNat + 10)
  else none

def hexNumber? (cs : List Char) : Option Nat :=
  cs.foldlM (fun n c => (hexValue? c).map (n * 16 + ·)) 0

def scalarChar? (n : Nat) : Option Char :=
  if n.isValidChar then some (Char.ofNat n) else none

/-! ## Bodies -/

/-- **Cutting off a body.**  The characters up to the first quote that no backslash protects, and
what follows that quote; `seen` holds the characters already passed, the last one first. -/
def untilQuote? (seen : List Char) : List Char → Option (List Char × List Char)
  | [] => none
  | '"' :: rest => some (seen.reverse, rest)
  | '\\' :: c :: rest => untilQuote? (c :: '\\' :: seen) rest
  | c :: rest => untilQuote? (c :: seen) rest

theorem untilQuote?_length {cs seen body rest : List Char}
    (h : untilQuote? seen cs = some (body, rest)) : rest.length < cs.length := by
  fun_induction untilQuote? seen cs with
  | case1 => simp at h
  | case2 => simp_all
  | case3 _ _ _ ih => have := ih h; simp; omega
  | case4 _ _ _ _ _ ih => have := ih h; simp; omega

end EventPayload.Text
