/-!
The order of texts and the order of their octets. Texts are compared by their characters,
names on a disk by the octets of their encoding, and both orders agree: of two characters
the lesser one has the lesser octet where their encodings part, and they always part.
-/

namespace RouteManifest.Text

def octets (text : String) : List UInt8 := text.toByteArray.data.toList

/-- Both lists part at some place, with the lesser octet in the first one. -/
def Parted : List UInt8 → List UInt8 → Prop
  | first :: left, second :: right => first < second ∨ (first = second ∧ Parted left right)
  | _, _ => False

theorem lt_of_parted {left right : List UInt8} (parted : Parted left right)
    (leftRest rightRest : List UInt8) : left ++ leftRest < right ++ rightRest := by
  induction left generalizing right with
  | nil => exact parted.elim
  | cons first left induction =>
      cases right with
      | nil => exact parted.elim
      | cons second right =>
          rw [List.cons_append, List.cons_append, List.cons_lt_cons_iff]
          exact parted.imp id fun ⟨same, later⟩ => ⟨same, induction later⟩

theorem append_lt_append (common : List UInt8) {left right : List UInt8} (less : left < right) :
    common ++ left < common ++ right := by
  induction common with
  | nil => exact less
  | cons octet common induction =>
      rw [List.cons_append, List.cons_append, List.cons_lt_cons_iff]
      exact .inr ⟨rfl, induction⟩

theorem encode_parted {first second : Char} (less : first < second) :
    Parted (String.utf8EncodeChar first) (String.utf8EncodeChar second) := by
  have numbers : first.val.toNat < second.val.toNat := less
  have limit : second.val.toNat < 0x110000 := by
    rcases second.valid with small | ⟨-, large⟩
    · exact Nat.lt_trans small (by decide)
    · exact large
  unfold String.utf8EncodeChar
  generalize first.val.toNat = lesser at numbers ⊢
  generalize second.val.toNat = greater at numbers limit ⊢
  -- The octets hold the digits to the base 64, so each division is one by 64 again.
  have digits : ∀ number : Nat,
      number / 4096 = number / 64 / 64 ∧ number / 262144 = number / 64 / 64 / 64 := by omega
  simp only [(digits _).1, (digits _).2]
  repeat' split
  all_goals
    simp only [Parted, UInt8.lt_iff_toNat_lt, ← UInt8.toNat_inj, UInt8.toNat_ofNat']
    omega

theorem flat_map_encode_lt {left right : List Char} (less : left < right) :
    left.flatMap String.utf8EncodeChar < right.flatMap String.utf8EncodeChar := by
  induction left generalizing right with
  | nil =>
      cases right with
      | nil => exact absurd less (List.lt_irrefl [])
      | cons second right =>
          obtain ⟨octet, others, shape⟩ :=
            List.exists_cons_of_ne_nil (String.utf8EncodeChar_ne_nil (c := second))
          rw [List.flatMap_cons, shape]
          exact List.nil_lt_cons _ _
  | cons first left induction =>
      cases right with
      | nil => exact absurd less (List.not_lt_nil _)
      | cons second right =>
          rw [List.flatMap_cons, List.flatMap_cons]
          rcases List.cons_lt_cons_iff.mp less with lesser | ⟨rfl, later⟩
          · exact lt_of_parted (encode_parted lesser) _ _
          · exact append_lt_append _ (induction later)

theorem octets_eq (text : String) : octets text = text.toList.flatMap String.utf8EncodeChar := by
  rw [octets, ← String.utf8Encode_toList, List.utf8Encode]
  simp

/-- The order of texts is the order of their octets. -/
theorem octets_lt {left right : String} (less : left < right) : octets left < octets right := by
  rw [octets_eq, octets_eq]
  exact flat_map_encode_lt less

end RouteManifest.Text
