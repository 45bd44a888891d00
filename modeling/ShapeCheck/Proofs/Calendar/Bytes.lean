import ShapeCheck.Proofs.Calendar.Readers

/-
  The bytes that the ISO forms are read from. A character of ASCII is one byte, any other one is two
  to four bytes outside of ASCII, and the first byte tells how many (`encode_wide`). So a digit
  among the bytes is a digit of the text (`exists_digit_of_utf8`), and what digit bytes write is
  what the digits write (`number?_bytes`).
-/

namespace ShapeCheck.Calendar

open ShapeCheck.Text

namespace Iso

/-- The bytes of a text. -/
def utf8 (s : List Char) : List Byte := s.flatMap String.utf8EncodeChar

theorem utf8_cons (c : Char) (s : List Char) :
    utf8 (c :: s) = String.utf8EncodeChar c ++ utf8 s := rfl

theorem utf8_append (s t : List Char) : utf8 (s ++ t) = utf8 s ++ utf8 t := List.flatMap_append

theorem toList_loop (bs : ByteArray) (i : Nat) (r : List UInt8) :
    ByteArray.toList.loop bs i r = r.reverse ++ bs.data.toList.drop i := by
  induction i, r using ByteArray.toList.loop.induct bs with
  | case1 i r hlt ih =>
    have hi : i < bs.data.toList.length := by simpa using hlt
    have hget : bs.get! i = bs.data.toList[i] := by
      simp only [ByteArray.get!, Array.getElem_toList]
      exact getElem!_pos bs.data i (by simpa using hlt)
    rw [ByteArray.toList.loop, if_pos hlt, ih, List.drop_eq_getElem_cons hi, hget,
      List.reverse_cons, List.append_assoc, List.singleton_append]
  | case2 i r hge =>
    have hlen : bs.data.toList.length ≤ i := by simpa using hge
    rw [ByteArray.toList.loop, if_neg hge, List.drop_eq_nil_of_le hlen, List.append_nil]

theorem toList_toUTF8 (s : List Char) : (String.ofList s).toUTF8.toList = utf8 s := by
  have hbytes : (String.ofList s).toUTF8 = (utf8 s).toByteArray := rfl
  rw [hbytes, ByteArray.toList, toList_loop, List.data_toByteArray]
  rfl

/-! ## Single characters -/

theorem encode_ascii {c : Char} (hc : c.toNat < 128) : String.utf8EncodeChar c = [byte c] := by
  have hle : c.val.toNat ≤ 127 := Nat.le_of_lt_succ hc
  rw [String.utf8EncodeChar]
  simp only [if_pos hle]
  rfl

theorem utf8_cons_ascii {c : Char} (hc : c.toNat < 128) (s : List Char) :
    utf8 (c :: s) = byte c :: utf8 s := by
  rw [utf8_cons, encode_ascii hc]
  rfl

theorem charLength_ofNat {n : Nat} (hn : n < 256) : charLength (UInt8.ofNat n) =
    if n < 128 then 1 else if n < 224 then 2 else if n < 240 then 3 else 4 := by
  simp only [charLength, UInt8.lt_iff_toNat_lt, UInt8.toNat_ofNat_of_lt' hn]
  rfl

/-- A character outside of ASCII has bytes outside of ASCII only, and the first one tells their
number. -/
theorem encode_wide {c : Char} (hc : 128 ≤ c.toNat) : ∃ b bs,
    String.utf8EncodeChar c = b :: bs ∧ charLength b = bs.length + 1 ∧
      ∀ x ∈ b :: bs, 128 ≤ x.toNat := by
  have hwide : ∀ {n}, 128 ≤ n → n < 256 → 128 ≤ (UInt8.ofNat n).toNat := by
    intro n hlow hhigh
    rwa [UInt8.toNat_ofNat_of_lt' hhigh]
  have hc : ¬c.val.toNat ≤ 127 := Nat.not_le_of_lt hc
  rw [String.utf8EncodeChar]
  generalize c.val.toNat = v at hc
  rw [if_neg hc]
  split
  · refine ⟨_, _, rfl, ?_, ?_⟩
    · rw [charLength_ofNat (by omega), if_neg (by omega), if_pos (by omega)]
      rfl
    · simp only [List.forall_mem_cons, List.not_mem_nil, false_implies, implies_true, and_true]
      exact ⟨hwide (by omega) (by omega), hwide (by omega) (by omega)⟩
  · split
    · refine ⟨_, _, rfl, ?_, ?_⟩
      · rw [charLength_ofNat (by omega), if_neg (by omega), if_neg (by omega), if_pos (by omega)]
        rfl
      · simp only [List.forall_mem_cons, List.not_mem_nil, false_implies, implies_true, and_true]
        exact ⟨hwide (by omega) (by omega), hwide (by omega) (by omega),
          hwide (by omega) (by omega)⟩
    · refine ⟨_, _, rfl, ?_, ?_⟩
      · rw [charLength_ofNat (by omega), if_neg (by omega), if_neg (by omega), if_neg (by omega)]
        rfl
      · simp only [List.forall_mem_cons, List.not_mem_nil, false_implies, implies_true, and_true]
        exact ⟨hwide (by omega) (by omega), hwide (by omega) (by omega),
          hwide (by omega) (by omega), hwide (by omega) (by omega)⟩

/-- The character that a text starts with and its bytes. -/
theorem encode_cases (c : Char) : (c.toNat < 128 ∧ String.utf8EncodeChar c = [byte c]) ∨
    ∃ b bs, String.utf8EncodeChar c = b :: bs ∧ charLength b = bs.length + 1 ∧
      ∀ x ∈ b :: bs, 128 ≤ x.toNat := by
  rcases Nat.lt_or_ge c.toNat 128 with hc | hc
  · exact .inl ⟨hc, encode_ascii hc⟩
  · exact .inr (encode_wide hc)

theorem toNat_byte {c : Char} (hc : c.toNat < 128) : (byte c).toNat = c.toNat := by
  rw [byte, Nat.toUInt8, UInt8.toNat_ofNat_of_lt' (by omega : c.toNat < 256)]

theorem byte_inj {c d : Char} (hc : c.toNat < 128) (hd : d.toNat < 128) (h : byte c = byte d) :
    c = d := by
  have hn := congrArg UInt8.toNat h
  rw [toNat_byte hc, toNat_byte hd] at hn
  exact Char.toNat_inj.1 hn

/-! ## Digits -/

theorem isDigit_iff {b : Byte} : isDigit b = true ↔ 48 ≤ b.toNat ∧ b.toNat ≤ 57 := by
  simp only [isDigit, Bool.and_eq_true, decide_eq_true_eq, UInt8.le_iff_toNat_le]
  rfl

theorem char_isDigit_iff {c : Char} : c.isDigit = true ↔ 48 ≤ c.toNat ∧ c.toNat ≤ 57 := by
  simp only [Char.isDigit, Bool.and_eq_true, decide_eq_true_eq, ge_iff_le, UInt32.le_iff_toNat_le]
  rfl

theorem lt_of_isDigit {c : Char} (hc : c.isDigit = true) : c.toNat < 128 := by
  have := char_isDigit_iff.1 hc
  omega

theorem isDigit_byte {c : Char} (hc : c.toNat < 128) :
    isDigit (byte c) = c.isDigit := by
  rw [Bool.eq_iff_iff, isDigit_iff, char_isDigit_iff, toNat_byte hc]

/-- A digit that the bytes of a text start with is a digit that the text starts with. -/
theorem exists_digit_of_utf8 {s : List Char} {b : Byte} {bs : List Byte} (h : utf8 s = b :: bs)
    (hb : isDigit b = true) : ∃ c t, s = c :: t ∧ c.isDigit = true ∧ b = byte c ∧ bs = utf8 t := by
  cases s with
  | nil => contradiction
  | cons c t =>
    rw [utf8_cons] at h
    rcases encode_cases c with ⟨hc, he⟩ | ⟨x, xs, he, -, hwide⟩
    · rw [he] at h
      cases h
      exact ⟨c, t, rfl, isDigit_byte hc ▸ hb, rfl, rfl⟩
    · rw [he] at h
      cases h
      have := hwide b (List.mem_cons_self ..)
      have := isDigit_iff.1 hb
      omega

/-- Digits that the bytes of a text start with are digits that the text starts with. -/
theorem exists_digits_of_utf8 {s : List Char} {ds bs : List Byte} (h : utf8 s = ds ++ bs)
    (hds : ∀ x ∈ ds, isDigit x = true) : ∃ t u, s = t ++ u ∧ t.length = ds.length ∧
      (∀ c ∈ t, c.isDigit = true) ∧ bs = utf8 u := by
  induction ds generalizing s with
  | nil => exact ⟨[], s, rfl, rfl, nofun, h.symm⟩
  | cons b ds ih =>
    obtain ⟨hb, htail⟩ := List.forall_mem_cons.1 hds
    obtain ⟨c, s, rfl, hc, -, hrest⟩ := exists_digit_of_utf8 h hb
    obtain ⟨t, u, rfl, hlen, ht, hbs⟩ := ih hrest.symm htail
    exact ⟨c :: t, u, rfl, congrArg (· + 1) hlen, List.forall_mem_cons.2 ⟨hc, ht⟩, hbs⟩

theorem utf8_digits {t : List Char} (ht : ∀ c ∈ t, c.isDigit = true) : utf8 t = t.map byte := by
  induction t with
  | nil => rfl
  | cons c t ih =>
    obtain ⟨hc, ht⟩ := List.forall_mem_cons.1 ht
    rw [utf8_cons, encode_ascii (lt_of_isDigit hc), ih ht]
    rfl

end Iso

/-- A digit of ASCII has the value that its place in ASCII gives it. -/
theorem digitValue?_of_isDigit {c : Char} (hc : c.isDigit = true) :
    digitValue? c = some (c.toNat - 48) := by
  have hrange := Iso.char_isDigit_iff.1 hc
  have hfirst : (decide (48 ≤ c.toNat) && decide (c.toNat < 48 + 10)) = true := by
    simp only [Bool.and_eq_true, decide_eq_true_eq]
    omega
  rw [digitValue?, digitZeros, List.find?_cons, hfirst]
  rfl

theorem isDecimalDigit_of_isDigit {c : Char} (hc : c.isDigit = true) : isDecimalDigit c = true := by
  rw [isDecimalDigit, digitValue?_of_isDigit hc]
  rfl

theorem not_isBlank_of_isDigit {c : Char} (hc : c.isDigit = true) : isBlank c = false := by
  have hrange := Iso.char_isDigit_iff.1 hc
  exact isBlank_eq_false_of_range (by omega) (by omega)

namespace Iso

theorem all_isDigit_bytes {t : List Char} (ht : ∀ c ∈ t, c.isDigit = true) :
    (t.map byte).all isDigit = true := by
  rw [List.all_map, List.all_eq_true]
  intro c hc
  exact (isDigit_byte (lt_of_isDigit (ht c hc))).trans (ht c hc)

theorem foldl_bytes {t : List Char} (ht : ∀ c ∈ t, c.isDigit = true) (n : Nat) :
    (t.map byte).foldl (fun n b => 10 * n + (b.toNat - 48)) n =
      t.foldl (fun n c => 10 * n + (digitValue? c).getD 0) n := by
  induction t generalizing n with
  | nil => rfl
  | cons c t ih =>
    obtain ⟨hc, ht⟩ := List.forall_mem_cons.1 ht
    rw [List.map_cons, List.foldl_cons, List.foldl_cons, ih ht, toNat_byte (lt_of_isDigit hc),
      digitValue?_of_isDigit hc, Option.getD_some]

/-- The number that digit bytes write is the one that the digits write. -/
theorem number?_bytes {t : List Char} (ht : ∀ c ∈ t, c.isDigit = true) :
    number? (t.map byte) = some (numeral t) := by
  rw [number?, if_pos (all_isDigit_bytes ht), foldl_bytes ht, numeral]

theorem digits_of_number? {bs : List Byte} {n : Nat} (h : number? bs = some n) :
    ∀ b ∈ bs, isDigit b = true := by
  rw [number?, Option.ite_none_right_eq_some] at h
  exact List.all_eq_true.1 h.1

end Iso

theorem isoMoment?_eq (s : List Char) :
    isoMoment? s = Iso.moment? (Iso.utf8 (spellOutZulu s)) := by
  rw [isoMoment?, isoMoment, Iso.toList_toUTF8, Iso.moment?]

end ShapeCheck.Calendar
