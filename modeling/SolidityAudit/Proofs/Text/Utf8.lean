import Mathlib.Tactic.Lemma
import Mathlib.Tactic.SplitIfs
import SolidityAudit.Text.Utf8

/-!
# Octets of a text and back

A character has one to four octets: the first tells how many there are, and each of the others
carries six bits. Taken as UTF-8, the octets of a text give the text (`decode_encode`), and octets
that are those of no text give nothing (`decode_eq_ok_iff`): what is decoded comes from its own
octets, character by character. A text is not cut where two texts meet, so octets in front of it
that are a text of their own stay in front (`encode_append`).
-/

namespace SolidityAudit.Text.Utf8

variable {place : Nat} {done : List Char} {rest : List UInt8} {s : Begun} {n x : Nat}

/-! ## One octet -/

/-- The octet that carries six bits behind the first octet of a character. -/
def following (x : Nat) : UInt8 := UInt8.ofNat (x + 0x80)

lemma toNat_following (h : x < 0x40) : (following x).toNat = x + 0x80 := by
  rw [following, UInt8.toNat_ofNat']
  omega

/-- An octet of ASCII is a character. -/
lemma decodeFrom_ascii (h : n < 0x80) :
    decodeFrom place none done (UInt8.ofNat n :: rest) =
      decodeFrom (place + 1) none (Char.ofNat n :: done) rest := by
  have hn : (UInt8.ofNat n).toNat = n := by
    rw [UInt8.toNat_ofNat']
    omega
  rw [decodeFrom, hn, if_pos h]

/-- Another octet begins a sequence. -/
lemma decodeFrom_begin {b : UInt8} (h : begin? b = some s) (hb : 0x80 ≤ b.toNat) :
    decodeFrom place none done (b :: rest) = decodeFrom (place + 1) (some s) done rest := by
  rw [decodeFrom, if_neg (by omega), h]

/-- An octet within the bounds goes on with a sequence. -/
lemma decodeFrom_more {m : Nat} (hmissing : s.missing = m + 2) (hx : x < 0x40)
    (hlow : s.low ≤ x + 0x80) (hhigh : x + 0x80 ≤ s.high) :
    decodeFrom place (some s) done (following x :: rest) =
      decodeFrom (place + 1)
        (some ⟨m + 1, 0x80, 0xBF, s.value * 64 + x, s.octets ++ [following x]⟩) done rest := by
  have hleft : s.missing - 1 = m + 1 := by omega
  rw [decodeFrom, toNat_following hx, if_pos ⟨hlow, hhigh⟩, if_neg (by omega), hleft,
    Nat.add_sub_cancel]

/-- The last one ends it with a character. -/
lemma decodeFrom_last (hmissing : s.missing = 1) (hx : x < 0x40) (hlow : s.low ≤ x + 0x80)
    (hhigh : x + 0x80 ≤ s.high) :
    decodeFrom place (some s) done (following x :: rest) =
      decodeFrom (place + 1) none (Char.ofNat (s.value * 64 + x) :: done) rest := by
  rw [decodeFrom, toNat_following hx, if_pos ⟨hlow, hhigh⟩, if_pos hmissing, Nat.add_sub_cancel]

/-! ## The first octet of several -/

lemma begin?_two : ∀ h < 0x20, 2 ≤ h →
    begin? (UInt8.ofNat (h + 0xC0)) = some ⟨1, 0x80, 0xBF, h, [UInt8.ofNat (h + 0xC0)]⟩ ∧
      0x80 ≤ (UInt8.ofNat (h + 0xC0)).toNat := by
  decide

/-- Behind the first octet of three, small values are overlong, and those of thirteen times twelve
bits may be surrogates. -/
lemma begin?_three : ∀ h < 0x10,
    begin? (UInt8.ofNat (h + 0xE0)) =
      some ⟨2, if h = 0 then 0xA0 else 0x80, if h = 13 then 0x9F else 0xBF, h,
        [UInt8.ofNat (h + 0xE0)]⟩ ∧
      0x80 ≤ (UInt8.ofNat (h + 0xE0)).toNat := by
  decide

/-- Behind the first octet of four, small values are overlong and large ones beyond the last code
point. -/
lemma begin?_four : ∀ h < 5,
    begin? (UInt8.ofNat (h + 0xF0)) =
      some ⟨3, if h = 0 then 0x90 else 0x80, if h = 4 then 0x8F else 0xBF, h,
        [UInt8.ofNat (h + 0xF0)]⟩ ∧
      0x80 ≤ (UInt8.ofNat (h + 0xF0)).toNat := by
  decide

/-! ## One character -/

lemma decodeFrom_two (hlow : 0x80 ≤ n) (hhigh : n ≤ 0x7FF) :
    decodeFrom place none done
        (UInt8.ofNat (n / 64 % 0x20 + 0xC0) :: following (n % 0x40) :: rest) =
      decodeFrom (place + 1 + 1) none (Char.ofNat n :: done) rest := by
  obtain ⟨hbegin, hfirst⟩ := begin?_two (n / 64 % 0x20) (by omega) (by omega)
  have hvalue : n / 64 % 0x20 * 64 + n % 0x40 = n := by omega
  rw [decodeFrom_begin hbegin hfirst,
    decodeFrom_last rfl (by omega) (Nat.le_add_left ..) (by dsimp only; omega), hvalue]

lemma decodeFrom_three (hlow : 0x800 ≤ n) (hhigh : n ≤ 0xFFFF)
    (hvalid : n < 0xD800 ∨ 0xDFFF < n) :
    decodeFrom place none done
        (UInt8.ofNat (n / 4096 % 0x10 + 0xE0) :: following (n / 64 % 0x40) ::
          following (n % 0x40) :: rest) =
      decodeFrom (place + 1 + 1 + 1) none (Char.ofNat n :: done) rest := by
  obtain ⟨hbegin, hfirst⟩ := begin?_three (n / 4096 % 0x10) (by omega)
  have hvalue : (n / 4096 % 0x10 * 64 + n / 64 % 0x40) * 64 + n % 0x40 = n := by omega
  rw [decodeFrom_begin hbegin hfirst,
    decodeFrom_more rfl (by omega) (by dsimp only; split_ifs <;> omega)
      (by dsimp only; split_ifs <;> omega),
    decodeFrom_last rfl (by omega) (Nat.le_add_left ..) (by dsimp only; omega), hvalue]

lemma decodeFrom_four (hlow : 0x10000 ≤ n) (hhigh : n < 0x110000) :
    decodeFrom place none done
        (UInt8.ofNat (n / 262144 % 0x08 + 0xF0) :: following (n / 4096 % 0x40) ::
          following (n / 64 % 0x40) :: following (n % 0x40) :: rest) =
      decodeFrom (place + 1 + 1 + 1 + 1) none (Char.ofNat n :: done) rest := by
  obtain ⟨hbegin, hfirst⟩ := begin?_four (n / 262144 % 0x08) (by omega)
  have hvalue : ((n / 262144 % 0x08 * 64 + n / 4096 % 0x40) * 64 + n / 64 % 0x40) * 64
      + n % 0x40 = n := by omega
  rw [decodeFrom_begin hbegin hfirst,
    decodeFrom_more rfl (by omega) (by dsimp only; split_ifs <;> omega)
      (by dsimp only; split_ifs <;> omega),
    decodeFrom_more rfl (by omega) (Nat.le_add_left ..) (by dsimp only; omega),
    decodeFrom_last rfl (by omega) (Nat.le_add_left ..) (by dsimp only; omega), hvalue]

/-- The octets of a character give the character, whatever comes behind them. -/
lemma decodeFrom_char (c : Char) (place : Nat) (done : List Char) (rest : List UInt8) :
    ∃ place', decodeFrom place none done (String.utf8EncodeChar c ++ rest) =
      decodeFrom place' none (c :: done) rest := by
  have hchar : Char.ofNat c.val.toNat = c := Char.ofNat_toNat c
  have hvalid : c.val.toNat < 0xD800 ∨ 0xDFFF < c.val.toNat ∧ c.val.toNat < 0x110000 := c.valid
  unfold String.utf8EncodeChar
  dsimp only
  split_ifs with hone htwo hthree
  · refine ⟨place + 1, ?_⟩
    show decodeFrom place none done (UInt8.ofNat c.val.toNat :: rest) = _
    rw [decodeFrom_ascii (by omega), hchar]
  · refine ⟨place + 1 + 1, ?_⟩
    show decodeFrom place none done (_ :: following (c.val.toNat % 0x40) :: rest) = _
    rw [decodeFrom_two (by omega) htwo, hchar]
  · refine ⟨place + 1 + 1 + 1, ?_⟩
    show decodeFrom place none done (_ :: following (c.val.toNat / 64 % 0x40) ::
      following (c.val.toNat % 0x40) :: rest) = _
    rw [decodeFrom_three (by omega) hthree (by omega), hchar]
  · refine ⟨place + 1 + 1 + 1 + 1, ?_⟩
    show decodeFrom place none done (_ :: following (c.val.toNat / 4096 % 0x40) ::
      following (c.val.toNat / 64 % 0x40) :: following (c.val.toNat % 0x40) :: rest) = _
    rw [decodeFrom_four (by omega) (by omega), hchar]

/-! ## A text -/

/-- The octets from a place on come behind those that have been taken. -/
lemma toList_loop (octets : ByteArray) (i : Nat) (done : List UInt8) :
    ByteArray.toList.loop octets i done = done.reverse ++ octets.data.toList.drop i := by
  have hsize : octets.data.toList.length = octets.size := Array.length_toList
  induction hleft : octets.size - i generalizing i done with
  | zero =>
    rw [ByteArray.toList.loop, if_neg (by omega), List.drop_eq_nil_of_le (by omega),
      List.append_nil]
  | succ left ih =>
    have hi : i < octets.data.toList.length := by omega
    have hnext : octets.get! i = octets.data.toList[i] := by
      rw [Array.getElem_toList]
      exact getElem!_pos octets.data i (by omega)
    rw [ByteArray.toList.loop, if_pos (by omega), ih (i + 1) _ (by omega), List.reverse_cons,
      List.append_assoc, List.drop_eq_getElem_cons hi, hnext]
    rfl

/-- The octets of a text are those of its characters. -/
lemma encode_eq_flatMap (s : String) : encode s = s.toList.flatMap String.utf8EncodeChar := by
  rw [encode, String.toUTF8_eq_toByteArray, ← String.utf8Encode_toList, List.utf8Encode,
    ByteArray.toList, toList_loop, List.toList_data_toByteArray]
  rfl

lemma encode_append (s t : String) : encode (s ++ t) = encode s ++ encode t := by
  rw [encode_eq_flatMap, encode_eq_flatMap, encode_eq_flatMap, String.toList_append,
    List.flatMap_append]

lemma decodeFrom_chars (cs : List Char) (place : Nat) (done : List Char) :
    decodeFrom place none done (cs.flatMap String.utf8EncodeChar) = .ok (done.reverse ++ cs) := by
  induction cs generalizing place done with
  | nil => rw [List.flatMap_nil, decodeFrom, List.append_nil]
  | cons c cs ih =>
    obtain ⟨place', hchar⟩ := decodeFrom_char c place done (cs.flatMap String.utf8EncodeChar)
    rw [List.flatMap_cons, hchar, ih, List.reverse_cons, List.append_assoc]
    rfl

/-- A text comes back from its octets. -/
theorem decode_encode (s : String) : decode (encode s) = .ok s.toList := by
  rw [decode, encode_eq_flatMap, decodeFrom_chars]
  rfl

/-! ## What is decoded -/

variable {b : UInt8} {cs : List Char} {octets : List UInt8}

/-- Where a sequence has begun, an octet within its bounds must follow. -/
lemma exists_following (h : decodeFrom place (some s) done octets = .ok cs) (hlow : 0x80 ≤ s.low)
    (hhigh : s.high ≤ 0xBF) :
    ∃ x rest, octets = following x :: rest ∧ x < 0x40 ∧ s.low ≤ x + 0x80 ∧ x + 0x80 ≤ s.high := by
  cases octets with
  | nil => cases h
  | cons b rest =>
    by_cases hb : s.low ≤ b.toNat ∧ b.toNat ≤ s.high
    · have hx : b.toNat - 0x80 + 0x80 = b.toNat := by omega
      refine ⟨b.toNat - 0x80, rest, ?_, by omega, by omega, by omega⟩
      rw [following, hx, UInt8.ofNat_toNat]
    · rw [decodeFrom, if_neg hb] at h
      cases h

section Begun

variable {missing low high value : Nat} {before : List UInt8}

lemma exists_more
    (h : decodeFrom place (some ⟨missing + 2, low, high, value, before⟩) done octets = .ok cs)
    (hlow : 0x80 ≤ low) (hhigh : high ≤ 0xBF) :
    ∃ x rest, octets = following x :: rest ∧ x < 0x40 ∧ low ≤ x + 0x80 ∧ x + 0x80 ≤ high ∧
      decodeFrom (place + 1)
        (some ⟨missing + 1, 0x80, 0xBF, value * 64 + x, before ++ [following x]⟩) done rest =
        .ok cs := by
  obtain ⟨x, rest, rfl, hx, hxlow, hxhigh⟩ := exists_following h hlow hhigh
  rw [decodeFrom_more rfl hx hxlow hxhigh] at h
  exact ⟨x, rest, rfl, hx, hxlow, hxhigh, h⟩

lemma exists_last
    (h : decodeFrom place (some ⟨1, low, high, value, before⟩) done octets = .ok cs)
    (hlow : 0x80 ≤ low) (hhigh : high ≤ 0xBF) :
    ∃ x rest, octets = following x :: rest ∧ x < 0x40 ∧ low ≤ x + 0x80 ∧ x + 0x80 ≤ high ∧
      decodeFrom (place + 1) none (Char.ofNat (value * 64 + x) :: done) rest = .ok cs := by
  obtain ⟨x, rest, rfl, hx, hxlow, hxhigh⟩ := exists_following h hlow hhigh
  rw [decodeFrom_last rfl hx hxlow hxhigh] at h
  exact ⟨x, rest, rfl, hx, hxlow, hxhigh, h⟩

end Begun

/-- An octet that begins a sequence is one of three kinds. -/
lemma begin?_cases (h : begin? b = some s) :
    (∃ n < 0x20, 2 ≤ n ∧ b = UInt8.ofNat (n + 0xC0)) ∨ (∃ n < 0x10, b = UInt8.ofNat (n + 0xE0)) ∨
      ∃ n < 5, b = UInt8.ofNat (n + 0xF0) := by
  have hsub (k : Nat) (hk : k ≤ b.toNat) : b = UInt8.ofNat (b.toNat - k + k) := by
    rw [Nat.sub_add_cancel hk, UInt8.ofNat_toNat]
  have hrange : 0xC2 ≤ b.toNat ∧ b.toNat ≤ 0xDF ∨ 0xE0 ≤ b.toNat ∧ b.toNat ≤ 0xEF ∨
      0xF0 ≤ b.toNat ∧ b.toNat ≤ 0xF4 := by
    unfold begin? at h
    dsimp only at h
    split_ifs at h <;> omega
  rcases hrange with ⟨hlow, hhigh⟩ | ⟨hlow, hhigh⟩ | ⟨hlow, hhigh⟩
  · exact .inl ⟨b.toNat - 0xC0, by omega, by omega, hsub _ (by omega)⟩
  · exact .inr (.inl ⟨b.toNat - 0xE0, by omega, hsub _ hlow⟩)
  · exact .inr (.inr ⟨b.toNat - 0xF0, by omega, hsub _ hlow⟩)

/-! ### The characters behind each kind of first octet -/

lemma val_ofNat (hn : n < 0xD800 ∨ 0xDFFF < n ∧ n < 0x110000) : (Char.ofNat n).val.toNat = n := by
  have hvalid : n.isValidChar := hn
  rw [Char.ofNat, dif_pos hvalid]
  rfl

lemma encodeChar_one (hn : n < 0x80) : String.utf8EncodeChar (Char.ofNat n) = [UInt8.ofNat n] := by
  unfold String.utf8EncodeChar
  dsimp only
  rw [val_ofNat (by omega), if_pos (by omega)]

lemma encodeChar_two (hlow : 0x80 ≤ n) (hhigh : n ≤ 0x7FF) :
    String.utf8EncodeChar (Char.ofNat n) =
      [UInt8.ofNat (n / 64 % 0x20 + 0xC0), following (n % 0x40)] := by
  unfold String.utf8EncodeChar
  dsimp only
  rw [val_ofNat (by omega), if_neg (by omega), if_pos hhigh]
  rfl

lemma encodeChar_three (hlow : 0x800 ≤ n) (hhigh : n ≤ 0xFFFF)
    (hvalid : n < 0xD800 ∨ 0xDFFF < n) :
    String.utf8EncodeChar (Char.ofNat n) =
      [UInt8.ofNat (n / 4096 % 0x10 + 0xE0), following (n / 64 % 0x40), following (n % 0x40)] := by
  unfold String.utf8EncodeChar
  dsimp only
  rw [val_ofNat (by omega), if_neg (by omega), if_neg (by omega), if_pos hhigh]
  rfl

lemma encodeChar_four (hlow : 0x10000 ≤ n) (hhigh : n < 0x110000) :
    String.utf8EncodeChar (Char.ofNat n) =
      [UInt8.ofNat (n / 262144 % 0x08 + 0xF0), following (n / 4096 % 0x40),
        following (n / 64 % 0x40), following (n % 0x40)] := by
  unfold String.utf8EncodeChar
  dsimp only
  rw [val_ofNat (by omega), if_neg (by omega), if_neg (by omega), if_neg (by omega)]
  rfl

/-- Octets begin with those of a character, and the rest is decoded behind it. -/
def BeginsWithChar (octets : List UInt8) (done cs : List Char) : Prop :=
  ∃ c rest place, octets = String.utf8EncodeChar c ++ rest ∧
    decodeFrom place none (c :: done) rest = .ok cs

lemma beginsWithChar_two (hn : n < 0x20) (hsmall : 2 ≤ n)
    (h : decodeFrom place none done (UInt8.ofNat (n + 0xC0) :: rest) = .ok cs) :
    BeginsWithChar (UInt8.ofNat (n + 0xC0) :: rest) done cs := by
  obtain ⟨hfirst, hoctet⟩ := begin?_two n hn hsmall
  rw [decodeFrom_begin hfirst hoctet] at h
  obtain ⟨x, rest, rfl, hx, -, -, h⟩ := exists_last h (Nat.le_refl _) (Nat.le_refl _)
  have hlead : (n * 64 + x) / 64 % 0x20 = n := by omega
  have hlast : (n * 64 + x) % 0x40 = x := by omega
  refine ⟨Char.ofNat (n * 64 + x), rest, _, ?_, h⟩
  rw [encodeChar_two (by omega) (by omega), hlead, hlast]
  rfl

lemma beginsWithChar_three (hn : n < 0x10)
    (h : decodeFrom place none done (UInt8.ofNat (n + 0xE0) :: rest) = .ok cs) :
    BeginsWithChar (UInt8.ofNat (n + 0xE0) :: rest) done cs := by
  obtain ⟨hfirst, hoctet⟩ := begin?_three n hn
  rw [decodeFrom_begin hfirst hoctet] at h
  obtain ⟨x, rest, rfl, hx, hlow, hhigh, h⟩ := exists_more h (by split_ifs <;> omega)
    (by split_ifs <;> omega)
  obtain ⟨y, rest, rfl, hy, -, -, h⟩ := exists_last h (Nat.le_refl _) (Nat.le_refl _)
  have hlead : ((n * 64 + x) * 64 + y) / 4096 % 0x10 = n := by omega
  have hmiddle : ((n * 64 + x) * 64 + y) / 64 % 0x40 = x := by omega
  have hlast : ((n * 64 + x) * 64 + y) % 0x40 = y := by omega
  refine ⟨Char.ofNat ((n * 64 + x) * 64 + y), rest, _, ?_, h⟩
  -- the bounds of the second octet keep overlong forms and surrogates out
  rw [encodeChar_three (by split_ifs at hlow <;> omega) (by omega)
    (by split_ifs at hhigh <;> omega), hlead, hmiddle, hlast]
  rfl

lemma beginsWithChar_four (hn : n < 5)
    (h : decodeFrom place none done (UInt8.ofNat (n + 0xF0) :: rest) = .ok cs) :
    BeginsWithChar (UInt8.ofNat (n + 0xF0) :: rest) done cs := by
  obtain ⟨hfirst, hoctet⟩ := begin?_four n hn
  rw [decodeFrom_begin hfirst hoctet] at h
  obtain ⟨x, rest, rfl, hx, hlow, hhigh, h⟩ := exists_more h (by split_ifs <;> omega)
    (by split_ifs <;> omega)
  obtain ⟨y, rest, rfl, hy, -, -, h⟩ := exists_more h (Nat.le_refl _) (Nat.le_refl _)
  obtain ⟨z, rest, rfl, hz, -, -, h⟩ := exists_last h (Nat.le_refl _) (Nat.le_refl _)
  have hlead : (((n * 64 + x) * 64 + y) * 64 + z) / 262144 % 0x08 = n := by omega
  have hsecond : (((n * 64 + x) * 64 + y) * 64 + z) / 4096 % 0x40 = x := by omega
  have hthird : (((n * 64 + x) * 64 + y) * 64 + z) / 64 % 0x40 = y := by omega
  have hlast : (((n * 64 + x) * 64 + y) * 64 + z) % 0x40 = z := by omega
  refine ⟨Char.ofNat (((n * 64 + x) * 64 + y) * 64 + z), rest, _, ?_, h⟩
  rw [encodeChar_four (by split_ifs at hlow <;> omega) (by split_ifs at hhigh <;> omega),
    hlead, hsecond, hthird, hlast]
  rfl

/-- What is decoded from a first octet on begins with the octets of a character. -/
lemma beginsWithChar (h : decodeFrom place none done (b :: rest) = .ok cs) :
    BeginsWithChar (b :: rest) done cs := by
  by_cases hascii : b.toNat < 0x80
  · rw [decodeFrom, if_pos hascii] at h
    refine ⟨Char.ofNat b.toNat, rest, place + 1, ?_, h⟩
    rw [encodeChar_one hascii, UInt8.ofNat_toNat]
    rfl
  cases hbegin : begin? b with
  | none =>
    rw [decodeFrom, if_neg hascii, hbegin] at h
    cases h
  | some s =>
    rcases begin?_cases hbegin with ⟨n, hn, hsmall, rfl⟩ | ⟨n, hn, rfl⟩ | ⟨n, hn, rfl⟩
    · exact beginsWithChar_two hn hsmall h
    · exact beginsWithChar_three hn h
    · exact beginsWithChar_four hn h

lemma flatMap_of_decodeFrom (h : decodeFrom place none done octets = .ok cs) :
    ∃ more, cs = done.reverse ++ more ∧ octets = more.flatMap String.utf8EncodeChar := by
  induction hlength : octets.length using Nat.strongRecOn generalizing octets place done with
  | _ length ih =>
    cases octets with
    | nil =>
      obtain rfl := Except.ok.inj h
      exact ⟨[], (List.append_nil _).symm, rfl⟩
    | cons b rest =>
      obtain ⟨c, rest', place', hoctets, hrest⟩ := beginsWithChar h
      have hshorter : rest'.length < length := by
        have hcount := congrArg List.length hoctets
        have hone := String.length_utf8EncodeChar c
        have hpos := Char.utf8Size_pos c
        rw [List.length_append] at hcount
        omega
      obtain ⟨more, rfl, rfl⟩ := ih _ hshorter hrest rfl
      refine ⟨c :: more, ?_, hoctets⟩
      rw [List.reverse_cons, List.append_assoc]
      rfl

/-- Octets are decoded to a text exactly when they are the octets of the text. -/
theorem decode_eq_ok_iff : decode octets = .ok cs ↔ octets = encode (String.ofList cs) := by
  constructor
  · intro h
    obtain ⟨more, rfl, hoctets⟩ := flatMap_of_decodeFrom h
    rw [hoctets, encode_eq_flatMap, String.toList_ofList]
  · rintro rfl
    rw [decode_encode, String.toList_ofList]

/-- What is no encoded text is refused. -/
lemma exists_decode_eq_error (h : ∀ s, encode s ≠ octets) : ∃ u, decode octets = .error u := by
  cases hdecode : decode octets with
  | error u => exact ⟨u, rfl⟩
  | ok cs => exact absurd (decode_eq_ok_iff.mp hdecode).symm (h _)


end SolidityAudit.Text.Utf8
