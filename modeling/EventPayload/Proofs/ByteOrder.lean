import EventPayload.Entries
import Mathlib.Tactic.Common

/-!
# Names in the order of their bytes

The entries of a table are put in the order of their keys.  Keys are compared character by
character; this file shows that this is the order of their UTF-8 bytes.

* `Text.bytes` — the bytes of a text.
* `lt_encode_append` — **the point of the encoding**: of two characters the later one has the later
  bytes, whatever follows, so that neither code is the beginning of the other.
* `Text.lt_iff_bytes_lt` — texts are ordered as their bytes are.
* `Entries.sorted_ordered` — sorting does put the entries in that order.
-/

namespace EventPayload

namespace Text

/-- The bytes of a text. -/
def bytes (s : String) : List UInt8 :=
  s.toUTF8.data.toList

theorem bytes_eq_flatMap (s : String) : bytes s = s.toList.flatMap String.utf8EncodeChar := by
  have h : s.toByteArray = (s.toList.flatMap String.utf8EncodeChar).toByteArray :=
    String.utf8Encode_toList.symm
  rw [bytes, String.toUTF8_eq_toByteArray, h, List.toList_data_toByteArray]

/-! ## Single characters -/

theorem ofNat_lt_ofNat {m n : Nat} (hm : m < 256) (hn : n < 256) :
    UInt8.ofNat m < UInt8.ofNat n ↔ m < n := by
  rw [UInt8.lt_iff_toNat_lt, UInt8.toNat_ofNat_of_lt' hm, UInt8.toNat_ofNat_of_lt' hn]

theorem ofNat_eq_ofNat {m n : Nat} (hm : m < 256) (hn : n < 256) :
    UInt8.ofNat m = UInt8.ofNat n ↔ m = n := by
  rw [← UInt8.toNat_inj, UInt8.toNat_ofNat_of_lt' hm, UInt8.toNat_ofNat_of_lt' hn]

/-- Of two characters the later one has the later bytes, whatever follows. -/
theorem lt_encode_append {c d : Char} (h : c < d) (xs ys : List UInt8) :
    String.utf8EncodeChar c ++ xs < String.utf8EncodeChar d ++ ys := by
  have hlt : c.val.toNat < d.val.toNat := h
  have hd : d.val.toNat < 0x110000 := by
    rcases d.valid with hv | ⟨-, hv⟩
    · exact Nat.lt_trans hv (by decide)
    · exact hv
  generalize hm : c.val.toNat = m at hlt
  generalize hn : d.val.toNat = n at hlt hd
  -- the first of the digits to base 64 in which the two numbers differ
  have hdigit : m / 262144 < n / 262144 ∨ m / 262144 = n / 262144 ∧
      (m / 4096 < n / 4096 ∨ m / 4096 = n / 4096 ∧
        (m / 64 < n / 64 ∨ m / 64 = n / 64 ∧ m % 64 < n % 64)) := by omega
  unfold String.utf8EncodeChar
  simp only [hm, hn]
  -- codes of different lengths differ in their first bytes, those of one length at that digit
  split_ifs <;>
    simp (disch := omega) only [List.cons_append, List.nil_append, List.cons_lt_cons_iff,
      ofNat_lt_ofNat, ofNat_eq_ofNat] <;>
    rcases hdigit with h | ⟨h₁, h | ⟨h₂, h | ⟨h₃, h⟩⟩⟩ <;>
    omega

/-! ## Texts -/

theorem flatMap_lt_flatMap {cs ds : List Char} (h : cs < ds) :
    cs.flatMap String.utf8EncodeChar < ds.flatMap String.utf8EncodeChar := by
  induction cs generalizing ds with
  | nil =>
    cases ds with
    | nil => exact absurd h (List.lt_irrefl [])
    | cons d ds =>
      rw [List.flatMap_nil, List.flatMap_cons]
      cases he : String.utf8EncodeChar d with
      | nil => exact absurd he String.utf8EncodeChar_ne_nil
      | cons b bs => exact List.Lex.nil
  | cons c cs ih =>
    cases ds with
    | nil => exact absurd h (List.not_lt_nil _)
    | cons d ds =>
      rw [List.flatMap_cons, List.flatMap_cons]
      rcases List.cons_lt_cons_iff.mp h with hc | ⟨rfl, htail⟩
      · exact lt_encode_append hc _ _
      · exact List.append_left_lt (ih htail)

/-- **Texts are ordered as their bytes are.** -/
theorem lt_iff_bytes_lt (s t : String) : s < t ↔ bytes s < bytes t := by
  have hforward : ∀ {a b : String}, a < b → bytes a < bytes b := by
    intro a b h
    rw [bytes_eq_flatMap, bytes_eq_flatMap]
    exact flatMap_lt_flatMap h
  refine ⟨hforward, fun h => ?_⟩
  by_contra hst
  have hne : t ≠ s := by
    rintro rfl
    exact List.lt_irrefl _ h
  have hts : t < s := Std.lt_of_le_of_ne (Std.not_lt.mp hst) hne
  exact List.lt_asymm h (hforward hts)

theorem le_iff_bytes_le (s t : String) : s ≤ t ↔ bytes s ≤ bytes t := by
  rw [← Std.not_lt, lt_iff_bytes_lt, List.not_lt]

end Text

/-! ## Sorting -/

namespace Entries

variable {α : Type}

theorem insertSorted_ordered (entry : String × α) {entries : Entries α}
    (h : entries.Pairwise fun a b => a.1 ≤ b.1) :
    (insertSorted entry entries).Pairwise fun a b => a.1 ≤ b.1 := by
  induction entries with
  | nil => simp [insertSorted]
  | cons head rest ih =>
    obtain ⟨hhead, hrest⟩ := List.pairwise_cons.mp h
    unfold insertSorted
    split
    · next hlt =>
      refine List.pairwise_cons.mpr ⟨fun other ho => ?_, h⟩
      rcases List.mem_cons.mp ho with rfl | ho
      · exact Std.le_of_lt hlt
      · exact Std.le_trans (Std.le_of_lt hlt) (hhead other ho)
    · next hge =>
      refine List.pairwise_cons.mpr ⟨fun other ho => ?_, ih hrest⟩
      rcases List.mem_cons.mp ((insertSorted_perm entry rest).mem_iff.mp ho) with rfl | ho
      · exact Std.not_lt.mp hge
      · exact hhead other ho

/-- **Sorting puts the entries in the order of their keys.** -/
theorem sorted_ordered (entries : Entries α) :
    (sorted entries).Pairwise fun a b => a.1 ≤ b.1 := by
  suffices h : ∀ acc : Entries α, (acc.Pairwise fun a b => a.1 ≤ b.1) →
      (entries.foldl (fun acc entry => insertSorted entry acc) acc).Pairwise
        fun a b => a.1 ≤ b.1 from h [] List.Pairwise.nil
  induction entries with
  | nil => intro acc h; exact h
  | cons entry rest ih => intro acc h; exact ih _ (insertSorted_ordered entry h)

end Entries

end EventPayload
