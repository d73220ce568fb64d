import TrainerBooking.Text.Utf8

/-! # The order of texts is the order of their bytes

Identifiers are compared as texts, character by character.  UTF-8 keeps that order: comparing the
bytes of two texts one by one gives the same answer (`Text.lt_iff_bytes`).

* **Characters.** Of two characters the smaller one has the smaller byte at the first place where
  their bytes differ, and such a place lies within both (`Text.splits_encode`).
* **Texts.** So whatever follows the first two characters that differ makes no difference to their
  bytes either. -/

namespace TrainerBooking.Text

/-! ### Lists that differ -/

/-- The lists differ at a place that both have, and the first one has the smaller byte there. -/
def Splits (l l' : List UInt8) : Prop :=
  ∃ front x y rest rest', l = front ++ x :: rest ∧ l' = front ++ y :: rest' ∧ x < y

namespace Splits

variable {rest rest' : List UInt8} {m n : Nat}

/-- The first byte may be the same if the rest decides. -/
theorem cons (hn : n < 256) (hle : m ≤ n) (h : m = n → Splits rest rest') :
    Splits (UInt8.ofNat m :: rest) (UInt8.ofNat n :: rest') := by
  rcases Nat.lt_or_eq_of_le hle with hlt | heq
  · refine ⟨[], _, _, rest, rest', rfl, rfl, ?_⟩
    rw [UInt8.lt_iff_toNat_lt, UInt8.toNat_ofNat', UInt8.toNat_ofNat']
    omega
  · obtain ⟨front, x, y, r, r', rfl, rfl, hxy⟩ := h heq
    exact ⟨UInt8.ofNat m :: front, x, y, r, r', rfl, by rw [heq]; rfl, hxy⟩

theorem of_lt (hn : n < 256) (hlt : m < n) :
    Splits (UInt8.ofNat m :: rest) (UInt8.ofNat n :: rest') :=
  cons hn (Nat.le_of_lt hlt) fun heq => absurd heq (Nat.ne_of_lt hlt)

/-- Lists that differ are in order whatever follows them. -/
theorem lt_append {l l' : List UInt8} (h : Splits l l') (tail tail' : List UInt8) :
    l ++ tail < l' ++ tail' := by
  obtain ⟨front, x, y, rest, rest', rfl, rfl, hxy⟩ := h
  rw [List.append_assoc, List.append_assoc]
  refine List.append_left_lt ?_
  exact List.cons_lt_cons_iff.mpr (.inl hxy)

end Splits

/-! ### Characters -/

theorem splits_encode {c d : Char} (h : c < d) :
    Splits (String.utf8EncodeChar c) (String.utf8EncodeChar d) := by
  have hlt : c.val.toNat < d.val.toNat := h
  have hmax : d.val.toNat < 0x110000 := by
    rcases d.valid with hd | ⟨-, hd⟩
    · exact Nat.lt_trans hd (by decide)
    · exact hd
  unfold String.utf8EncodeChar
  generalize c.val.toNat = v at hlt ⊢
  generalize d.val.toNat = w at hlt hmax ⊢
  dsimp only
  by_cases h1 : w ≤ 0x7f
  · rw [if_pos h1, if_pos (by omega)]
    exact .of_lt (by omega) hlt
  rw [if_neg h1]
  by_cases h2 : w ≤ 0x7ff
  · rw [if_pos h2]
    split
    · exact .of_lt (by omega) (by omega)
    rw [if_pos (by omega)]
    exact .cons (by omega) (by omega) fun _ => .of_lt (by omega) (by omega)
  rw [if_neg h2]
  by_cases h3 : w ≤ 0xffff
  · rw [if_pos h3]
    split
    · exact .of_lt (by omega) (by omega)
    split
    · exact .of_lt (by omega) (by omega)
    rw [if_pos (by omega)]
    exact .cons (by omega) (by omega) fun _ => .cons (by omega) (by omega) fun _ =>
      .of_lt (by omega) (by omega)
  rw [if_neg h3]
  split
  · exact .of_lt (by omega) (by omega)
  split
  · exact .of_lt (by omega) (by omega)
  split
  · exact .of_lt (by omega) (by omega)
  exact .cons (by omega) (by omega) fun _ => .cons (by omega) (by omega) fun _ =>
    .cons (by omega) (by omega) fun _ => .of_lt (by omega) (by omega)

theorem encode_ne_nil (c : Char) : String.utf8EncodeChar c ≠ [] := by
  rw [← List.length_pos_iff, String.length_utf8EncodeChar]
  exact c.utf8Size_pos

/-! ### Texts -/

/-- The bytes of characters are in order if the characters are. -/
theorem flatMap_lt {l l' : List Char} (h : l < l') :
    l.flatMap String.utf8EncodeChar < l'.flatMap String.utf8EncodeChar := by
  induction h with
  | @nil c rest =>
      rw [List.flatMap_nil, List.flatMap_cons]
      obtain ⟨byte, bytes, he⟩ := List.exists_cons_of_ne_nil (encode_ne_nil c)
      rw [he]
      exact List.nil_lt_cons ..
  | rel h =>
      rw [List.flatMap_cons, List.flatMap_cons]
      exact (splits_encode h).lt_append _ _
  | cons _ ih =>
      rw [List.flatMap_cons, List.flatMap_cons]
      exact List.append_left_lt ih

/-- Reading an array byte by byte puts what is left of it behind what was read. -/
theorem toList_loop_eq (bytes : ByteArray) (i : Nat) (read : List UInt8) :
    ByteArray.toList.loop bytes i read = read.reverse ++ bytes.data.toList.drop i := by
  fun_induction ByteArray.toList.loop bytes i read with
  | case1 i read h ih =>
      have hi : i < bytes.data.toList.length := h
      rw [ih, List.drop_eq_getElem_cons hi]
      simp [ByteArray.get!, h]
  | case2 i read h =>
      rw [List.drop_eq_nil_of_le (Nat.le_of_not_lt h), List.append_nil]

theorem utf8Bytes_eq (s : String) : utf8Bytes s = s.toList.flatMap String.utf8EncodeChar := by
  rw [utf8Bytes, String.toUTF8_eq_toByteArray, ByteArray.toList, toList_loop_eq, List.reverse_nil,
    List.nil_append, List.drop_zero, ← String.ofList_toList (s := s), String.toList_ofList]
  exact List.toList_data_toByteArray

/-- **Texts are ordered as their bytes are**, byte by byte. -/
theorem lt_iff_bytes {s s' : String} : s < s' ↔ utf8Bytes s < utf8Bytes s' := by
  rw [utf8Bytes_eq, utf8Bytes_eq]
  constructor
  · exact flatMap_lt
  · intro hlt
    refine Decidable.byContradiction fun hnot => ?_
    rcases List.le_iff_lt_or_eq.mp (List.not_lt.mp hnot) with h | h
    · exact List.lt_asymm hlt (flatMap_lt h)
    · rw [h] at hlt
      exact List.lt_irrefl _ hlt

end TrainerBooking.Text
