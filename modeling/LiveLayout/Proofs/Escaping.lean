import LiveLayout.Text.Percent

/-!
# What percent encoding writes

An encoded text consists of unreserved characters and of escaped bytes, and it
is read back as the text that it was made from. No character that separates
parts of an address is ever written.
-/

namespace LiveLayout.Text.Percent

def bytes (s : String) : List UInt8 := s.toList.flatMap String.utf8EncodeChar

/-- The text that characters stand for, if their bytes are one. -/
def decode (cs : List Char) : Option String :=
  (decodeBytes cs).bind fun bytes => String.fromUTF8? bytes.toByteArray

/-- Unreserved bytes stand for themselves, all others are a percent sign and two
upper-case digits. -/
inductive Encodes : List UInt8 → List Char → Prop
  | nil : Encodes [] []
  | plain (hb : isUnreserved b = true) (hc : c.toNat = b.toNat) (h : Encodes bs cs) :
      Encodes (b :: bs) (c :: cs)
  | escaped (hb : isUnreserved b = false) (hh : hexValue high = some (b.toNat / 16))
      (hl : hexValue low = some (b.toNat % 16)) (h : Encodes bs cs) :
      Encodes (b :: bs) ('%' :: high :: low :: cs)

/-- Characters that mean something in an address or a template. -/
def reserved : List Char := ['/', '?', '#', '&', '=', '{', '}']

-- ---------------------------------------------------------------------------
-- Unreserved characters
-- ---------------------------------------------------------------------------

theorem isUnreserved_bounds {b : UInt8} (h : isUnreserved b = true) :
    b.toNat < 0x80 ∧ b.toNat ≠ 0x25 := by
  simp only [isUnreserved, Bool.or_eq_true, Bool.and_eq_true, decide_eq_true_eq, beq_iff_eq,
    UInt8.le_iff_toNat_le, ← UInt8.toNat_inj, UInt8.reduceToNat] at h
  omega

theorem isUnreserved_of_hexValue (h : hexValue c = some n) :
    ∃ b, isUnreserved b = true ∧ c.toNat = b.toNat := by
  have hc : (0x30 ≤ c.toNat ∧ c.toNat ≤ 0x39) ∨ (0x41 ≤ c.toNat ∧ c.toNat ≤ 0x46) := by
    unfold hexValue at h
    grind
  have hlt : c.toNat < 256 := by omega
  have hn : (UInt8.ofNat c.toNat).toNat = c.toNat := UInt8.toNat_ofNat_of_lt' hlt
  refine ⟨UInt8.ofNat c.toNat, ?_, hn.symm⟩
  simp only [isUnreserved, Bool.or_eq_true, Bool.and_eq_true, decide_eq_true_eq, beq_iff_eq,
    UInt8.le_iff_toNat_le, ← UInt8.toNat_inj, UInt8.reduceToNat, hn]
  omega

theorem Encodes.unreserved (h : Encodes bs cs) (hm : c ∈ cs) :
    c = '%' ∨ ∃ b, isUnreserved b = true ∧ c.toNat = b.toNat := by
  induction h with
  | nil => cases hm
  | plain hb hc _ ih =>
    rcases List.mem_cons.mp hm with rfl | hm
    · exact .inr ⟨_, hb, hc⟩
    · exact ih hm
  | escaped _ hh hl _ ih =>
    simp only [List.mem_cons] at hm
    rcases hm with rfl | rfl | rfl | hm
    · exact .inl rfl
    · exact .inr (isUnreserved_of_hexValue hh)
    · exact .inr (isUnreserved_of_hexValue hl)
    · exact ih hm

theorem isUnreserved_reserved (hr : c ∈ reserved) :
    c ≠ '%' ∧ isUnreserved (UInt8.ofNat c.toNat) = false := by
  simp only [reserved, List.mem_cons, List.not_mem_nil, or_false] at hr
  rcases hr with rfl | rfl | rfl | rfl | rfl | rfl | rfl <;> decide

theorem Encodes.notMem (h : Encodes bs cs) (hr : c ∈ reserved) : c ∉ cs := by
  intro hm
  have hc := isUnreserved_reserved hr
  rcases h.unreserved hm with rfl | ⟨b, hb, he⟩
  · exact hc.1 rfl
  · rw [he, UInt8.ofNat_toNat, hb] at hc
    exact absurd hc.2 (by simp)

-- ---------------------------------------------------------------------------
-- Encoding
-- ---------------------------------------------------------------------------

theorem Encodes.append (h : Encodes bs cs) (h' : Encodes bs' cs') :
    Encodes (bs ++ bs') (cs ++ cs') := by
  induction h with
  | nil => exact h'
  | plain hb hc _ ih => exact .plain hb hc ih
  | escaped hb hh hl _ ih => exact .escaped hb hh hl ih

theorem encodes_encodeByte (b : UInt8) : Encodes [b] (encodeByte b) := by
  unfold encodeByte
  cases hb : isUnreserved b with
  | true =>
    have hn := (isUnreserved_bounds hb).1
    have hv : b.toNat.isValidChar := .inl (by omega)
    refine .plain hb ?_ .nil
    rw [Char.ofNat, dif_pos hv]
    rfl
  | false =>
    have hn := b.toNat_lt
    exact .escaped hb (hexValue_hexDigit (by omega)) (hexValue_hexDigit (by omega)) .nil

theorem encodes_flatMap (bs : List UInt8) : Encodes bs (bs.flatMap encodeByte) := by
  induction bs with
  | nil => exact .nil
  | cons b rest ih => exact (encodes_encodeByte b).append ih

theorem encodes_encodeChars (s : String) : Encodes (bytes s) (encodeChars s.toList) := by
  unfold bytes encodeChars
  induction s.toList with
  | nil => exact .nil
  | cons c rest ih => exact (encodes_flatMap _).append ih

-- ---------------------------------------------------------------------------
-- Reading back
-- ---------------------------------------------------------------------------

theorem decodeBytes_plain (hc : c ≠ '%') (hn : c.toNat < 0x80) (cs : List Char) :
    decodeBytes (c :: cs) = (decodeBytes cs).map (UInt8.ofNat c.toNat :: ·) := by
  rw [decodeBytes]
  · simp [hc, hn]
  · rintro high low rest rfl
    exact absurd rfl hc

theorem Encodes.decodeBytes (h : Encodes bs cs) : decodeBytes cs = some bs := by
  induction h with
  | nil => rfl
  | @plain b c _ _ hb hc _ ih =>
    obtain ⟨hlt, hne⟩ := isUnreserved_bounds hb
    rw [decodeBytes_plain ?_ (hc ▸ hlt), ih, hc, UInt8.ofNat_toNat]
    · rfl
    · rintro rfl
      exact hne hc.symm
  | @escaped b _ _ _ _ _ hh hl _ ih =>
    have hb : UInt8.ofNat (b.toNat / 16 * 16 + b.toNat % 16) = b := by
      rw [Nat.div_add_mod', UInt8.ofNat_toNat]
    simp only [Percent.decodeBytes, hh, hl, ih, Option.bind_eq_bind, Option.bind_some, hb]
    rfl

theorem toByteArray_bytes (s : String) : (bytes s).toByteArray = s.toByteArray := by
  rw [← String.utf8Encode_toList]
  rfl

theorem Encodes.decode (h : Encodes (bytes s) cs) : decode cs = some s := by
  rw [Percent.decode, h.decodeBytes, Option.bind_some, toByteArray_bytes, String.fromUTF8?,
    dif_pos s.isValidUTF8]
  rfl

/-- The same encoding is of the same bytes. -/
theorem Encodes.text_inj (h : Encodes (bytes s) cs) (h' : Encodes (bytes t) cs) : s = t :=
  Option.some.inj (h.decode.symm.trans h'.decode)

end LiveLayout.Text.Percent
