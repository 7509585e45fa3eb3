import HsmProxy.Crypto.Agreement
import HsmProxy.Crypto.PublicKey

/-!
# The two formats of `CKA_EC_POINT`

`unwrap_der_octet_string` accepts a SEC1 point and a DER `OCTET STRING` around one.  Both begin with
the byte `0x04`; a value of 65 bytes is taken for a bare point.  `unwrapDerOctetString_eq_ok_iff`
says what is accepted, in terms of the length octets that are read (`LengthForm`).

* `ec_point_unwrapped`: what is wrapped is unwrapped, and no index is out of range.
* `ec_point_accepted`: besides the two formats, a wrapped value may be followed by anything, and a
  length below 128 may be written with one octet too many.
-/

namespace HsmProxy

/-! ## The length octets -/

/-- The length octets that are read for a content of `n` bytes: one octet, or `0x81` and one
octet. -/
inductive LengthForm (n : ℕ) : Bytes → Prop
  | short : n < 128 → LengthForm n [UInt8.ofNat n]
  | long : n < 256 → LengthForm n [0x81, UInt8.ofNat n]

/-- The length octets of DER, up to 255 bytes. -/
lemma Der.lengthOctets_eq {n : ℕ} (hn : n < 256) :
    Der.lengthOctets n = if n < 128 then [UInt8.ofNat n] else [0x81, UInt8.ofNat n] := by
  unfold Der.lengthOctets
  split
  · rfl
  · rename_i hlong
    have hdigits : Der.digits 256 n = [UInt8.ofNat n] := by
      have hne : n ≠ 0 := by omega
      simp [Der.digits, Nat.digits_of_lt 256 n hne hn]
    rw [hdigits]
    rfl

/-- The length octets of DER are read. -/
lemma lengthForm_lengthOctets {n : ℕ} (hn : n < 256) : LengthForm n (Der.lengthOctets n) := by
  rw [Der.lengthOctets_eq hn]
  split
  · exact .short ‹_›
  · exact .long hn

/-- What is read are the length octets of DER, or the long form of a length that has a short
one. -/
lemma lengthForm_iff (n : ℕ) (octets : Bytes) : LengthForm n octets ↔
    (n < 256 ∧ octets = Der.lengthOctets n) ∨ (n < 128 ∧ octets = [0x81, UInt8.ofNat n]) := by
  constructor
  · rintro (hshort | hlong)
    · have hn : n < 256 := by omega
      exact Or.inl ⟨hn, by rw [Der.lengthOctets_eq hn, if_pos hshort]⟩
    · by_cases hshort : n < 128
      · exact Or.inr ⟨hshort, rfl⟩
      · exact Or.inl ⟨hlong, by rw [Der.lengthOctets_eq hlong, if_neg hshort]⟩
  · rintro (⟨hn, rfl⟩ | ⟨hn, rfl⟩)
    · exact lengthForm_lengthOctets hn
    · exact .long (by omega)

/-- The octets are read from the front. -/
lemma ecPointHeader_of_lengthForm {n : ℕ} {octets : Bytes} (h : LengthForm n octets) (tag : UInt8)
    (rest : Bytes) : ecPointHeader (tag :: (octets ++ rest)) = .ok (n, 1 + octets.length) := by
  have htoNat : n < 256 → (UInt8.ofNat n).toNat = n := fun hn => by
    simp [Nat.mod_eq_of_lt hn]
  cases h with
  | short hn =>
    have hlt : UInt8.ofNat n < 0x80 := by
      rw [UInt8.lt_iff_toNat_lt, htoNat (by omega)]
      exact hn
    simp only [ecPointHeader, List.cons_append, List.nil_append, List.getElem?_cons_succ,
      List.getElem?_cons_zero, if_pos hlt, htoNat (show n < 256 by omega)]
    rfl
  | long hn =>
    have hlt : ¬ (0x81 : UInt8) < 0x80 := by decide
    simp only [ecPointHeader, List.cons_append, List.nil_append, List.getElem?_cons_succ,
      List.getElem?_cons_zero, if_neg hlt, if_true, htoNat hn]
    rfl

/-- What is read was there. -/
lemma lengthForm_of_ecPointHeader {bytes : Bytes} {n offset : ℕ}
    (h : ecPointHeader bytes = .ok (n, offset)) :
    ∃ tag octets rest, bytes = tag :: (octets ++ rest) ∧ LengthForm n octets ∧
      offset = 1 + octets.length := by
  rcases bytes with _ | ⟨tag, _ | ⟨first, rest⟩⟩
  · cases h
  · cases h
  · simp only [ecPointHeader, List.getElem?_cons_succ, List.getElem?_cons_zero] at h
    split at h
    · rename_i hshort
      obtain ⟨rfl, rfl⟩ := Prod.mk.inj (Except.ok.inj h)
      refine ⟨tag, [first], rest, rfl, ?_, rfl⟩
      have hform : LengthForm first.toNat [UInt8.ofNat first.toNat] :=
        .short (UInt8.lt_iff_toNat_lt.mp hshort)
      rwa [UInt8.ofNat_toNat] at hform
    · split at h
      · rename_i hlong
        subst hlong
        rcases rest with _ | ⟨second, rest⟩
        · cases h
        · obtain ⟨rfl, rfl⟩ := Prod.mk.inj (Except.ok.inj h)
          refine ⟨tag, [0x81, second], rest, rfl, ?_, rfl⟩
          have hform : LengthForm second.toNat [0x81, UInt8.ofNat second.toNat] :=
            .long second.toNat_lt
          rwa [UInt8.ofNat_toNat] at hform
      · cases h

/-! ## What is accepted -/

/-- A value that is taken for a bare SEC1 point. -/
def bareEcPoint (bytes : Bytes) : Prop := bytes.length = 65 ∧ bytes.head? = some 0x04

instance (bytes : Bytes) : Decidable (bareEcPoint bytes) := inferInstanceAs (Decidable (_ ∧ _))

/-- Where the content is: behind the tag and the length octets, within the value. -/
lemma ecPointContent_eq_ok_iff (bytes : Bytes) (offset len : ℕ) :
    ecPointContent bytes = .ok (offset, len) ↔ bytes.head? = some 0x04 ∧
      ecPointHeader bytes = .ok (len, offset) ∧ offset + len ≤ bytes.length := by
  unfold ecPointContent
  by_cases htag : bytes.head? = some 0x04
  · rw [if_neg (not_not.mpr htag)]
    cases ecPointHeader bytes with
    | error e => simp
    | ok header =>
      obtain ⟨len', offset'⟩ := header
      by_cases hfits : offset' + len' ≤ bytes.length
      · simp only [if_pos hfits, htag, true_and]
        constructor
        · intro h
          obtain ⟨rfl, rfl⟩ := Prod.mk.inj (Except.ok.inj h)
          exact ⟨rfl, hfits⟩
        · rintro ⟨h, -⟩
          obtain ⟨rfl, rfl⟩ := Prod.mk.inj (Except.ok.inj h)
          rfl
      · simp only [if_neg hfits]
        refine iff_of_false (fun h => by cases h) ?_
        rintro ⟨-, h, hfits'⟩
        obtain ⟨rfl, rfl⟩ := Prod.mk.inj (Except.ok.inj h)
        exact hfits hfits'
  · rw [if_pos htag]
    exact iff_of_false (fun h => by cases h) fun h => htag h.1

/-- A bare point is accepted as it is; any other value that begins with the tag, the length octets
of `s` and `s` is accepted as `s`, whatever follows; and nothing else is accepted. -/
theorem unwrapDerOctetString_eq_ok_iff (bytes s : Bytes) : unwrapDerOctetString bytes = .ok s ↔
    (bytes = s ∧ bareEcPoint s) ∨ (¬ bareEcPoint bytes ∧ ∃ octets rest,
      LengthForm s.length octets ∧ bytes = 0x04 :: (octets ++ (s ++ rest))) := by
  unfold unwrapDerOctetString
  constructor
  · intro h
    split at h
    · rename_i hbare
      obtain rfl := Except.ok.inj h
      exact Or.inl ⟨rfl, hbare⟩
    · rename_i hbare
      refine Or.inr ⟨hbare, ?_⟩
      cases hcontent : ecPointContent bytes with
      | error e =>
        rw [hcontent] at h
        cases h
      | ok content =>
        obtain ⟨offset, len⟩ := content
        obtain ⟨htag, hheader, hfits⟩ := (ecPointContent_eq_ok_iff bytes offset len).mp hcontent
        obtain ⟨tag, octets, rest, rfl, hform, rfl⟩ := lengthForm_of_ecPointHeader hheader
        have hs : s = rest.take len := by
          have hdrop : (tag :: (octets ++ rest)).drop (1 + octets.length) = rest := by
            rw [Nat.add_comm, List.drop_succ_cons, List.drop_left]
          rw [hcontent] at h
          exact (Except.ok.inj h).symm.trans (congrArg (List.take len) hdrop)
        have hlen : len ≤ rest.length := by
          simp only [List.length_cons, List.length_append] at hfits
          omega
        have hlength : s.length = len := by
          rw [hs, List.length_take]
          omega
        obtain rfl : tag = 0x04 := Option.some.inj htag
        refine ⟨octets, rest.drop len, hlength ▸ hform, ?_⟩
        rw [hs, List.take_append_drop]
  · rintro (⟨rfl, hbare⟩ | ⟨hbare, octets, rest, hform, rfl⟩)
    · exact if_pos hbare
    · have hfits : 1 + octets.length + s.length ≤
          (0x04 :: (octets ++ (s ++ rest)) : Bytes).length := by
        simp only [List.length_cons, List.length_append]
        omega
      have hdrop : (0x04 :: (octets ++ (s ++ rest)) : Bytes).drop (1 + octets.length) =
          s ++ rest := by
        rw [Nat.add_comm, List.drop_succ_cons, List.drop_left]
      have hcontent := (ecPointContent_eq_ok_iff _ _ _).mpr
        ⟨rfl, ecPointHeader_of_lengthForm hform 0x04 (s ++ rest), hfits⟩
      refine (if_neg hbare).trans ?_
      rw [hcontent]
      show Except.ok ((List.drop _ _).take _) = _
      rw [hdrop, List.take_left]

/-- The DER encoding of anything but 63 bytes is not taken for a bare point. -/
lemma not_bareEcPoint_octetString {s : Bytes} (hs : s.length ≤ 255) (hne : s.length ≠ 63) :
    ¬ bareEcPoint (Der.octetString s) := by
  rintro ⟨hlength, -⟩
  have hn : s.length < 256 := by omega
  rw [Der.octetString, Der.tlv, List.cons_append, List.length_cons, List.length_append,
    Der.lengthOctets_eq hn] at hlength
  split at hlength
  · simp only [List.length_singleton] at hlength
    omega
  · simp only [List.length_cons, List.length_nil] at hlength
    omega

/-- What is wrapped is unwrapped. -/
lemma unwrapDerOctetString_octetString {s : Bytes} (hs : s.length ≤ 255) (hne : s.length ≠ 63) :
    unwrapDerOctetString (Der.octetString s) = .ok s := by
  have hn : s.length < 256 := by omega
  refine (unwrapDerOctetString_eq_ok_iff _ s).mpr (Or.inr ⟨not_bareEcPoint_octetString hs hne,
    Der.lengthOctets s.length, [], lengthForm_lengthOctets hn, ?_⟩)
  rw [List.append_nil]
  rfl

/-! ## Indices -/

/-- The test for a bare point with its index, `bytes.len() == 65 && bytes[0] == 0x04`; `none` when
the index is out of range, which is a panic.  The index is evaluated after the length. -/
def indexedBareTest (bytes : Bytes) : Option Bool :=
  if bytes.length = 65 then (bytes[0]?).map fun first => decide (first = 0x04) else some false

/-- The same function with its index, and with the slice that is returned as its first index and its
length.  All other accesses are `get`, which is checked. -/
def unwrapDerOctetStringSlice (bytes : Bytes) : Option (Except AnyhowError (ℕ × ℕ)) :=
  (indexedBareTest bytes).map fun bare =>
    if bare then .ok (0, bytes.length) else ecPointContent bytes

/-- The index is never out of range. -/
lemma indexedBareTest_eq (bytes : Bytes) :
    indexedBareTest bytes = some (decide (bareEcPoint bytes)) := by
  unfold indexedBareTest bareEcPoint
  by_cases hlength : bytes.length = 65
  · rw [if_pos hlength]
    cases bytes with
    | nil => cases hlength
    | cons first rest => simp [hlength]
  · rw [if_neg hlength]
    simp [hlength]

/-- No index is out of range, and a slice that is returned lies within the value. -/
lemma unwrapDerOctetStringSlice_eq (bytes : Bytes) : ∃ r, unwrapDerOctetStringSlice bytes = some r ∧
    ((∃ e, r = .error e ∧ unwrapDerOctetString bytes = .error e) ∨
      ∃ offset len, r = .ok (offset, len) ∧ offset + len ≤ bytes.length ∧
        unwrapDerOctetString bytes = .ok ((bytes.drop offset).take len)) := by
  by_cases hbare : bareEcPoint bytes
  · have hslice : unwrapDerOctetStringSlice bytes = some (.ok (0, bytes.length)) := by
      rw [unwrapDerOctetStringSlice, indexedBareTest_eq, decide_eq_true hbare]
      rfl
    refine ⟨_, hslice, Or.inr ⟨0, bytes.length, rfl, by omega, ?_⟩⟩
    rw [List.drop_zero, List.take_length]
    exact if_pos hbare
  · have hslice : unwrapDerOctetStringSlice bytes = some (ecPointContent bytes) := by
      rw [unwrapDerOctetStringSlice, indexedBareTest_eq, decide_eq_false hbare]
      rfl
    have hunwrap : unwrapDerOctetString bytes = _ := if_neg hbare
    refine ⟨_, hslice, ?_⟩
    rw [hunwrap]
    cases hcontent : ecPointContent bytes with
    | error e => exact Or.inl ⟨e, rfl, rfl⟩
    | ok content =>
      obtain ⟨offset, len⟩ := content
      obtain ⟨-, -, hfits⟩ := (ecPointContent_eq_ok_iff bytes offset len).mp hcontent
      exact Or.inr ⟨offset, len, rfl, hfits, rfl⟩

/-! ## Results -/

/-- Unwrapping undoes the wrapping.  The DER `OCTET STRING` of every string of at most 255 bytes but
63 gives the string; a bare point gives itself; so `ec_spki` makes the same of an uncompressed point
whether the module wraps it or not; and on every input the function returns an error or a slice that
lies within the input, without an index that is out of range. -/
theorem ec_point_unwrapped :
    (∀ s : Bytes, s.length ≤ 255 → s.length ≠ 63 →
      unwrapDerOctetString (Der.octetString s) = .ok s) ∧
    (∀ s : Bytes, s.length = 65 → s.head? = some 0x04 → unwrapDerOctetString s = .ok s) ∧
    (∀ (P : Platform) (attrs attrs' : List Attribute) (s : Bytes), s.length = 65 →
      s.head? = some 0x04 → attrs.findSome? Attribute.ecPoint? = some s →
      attrs'.findSome? Attribute.ecPoint? = some (Der.octetString s) →
      ecSpkiOf P attrs' = ecSpkiOf P attrs) ∧
    ∀ bytes, ∃ r, unwrapDerOctetStringSlice bytes = some r ∧
      ((∃ e, r = .error e ∧ unwrapDerOctetString bytes = .error e) ∨
        ∃ offset len, r = .ok (offset, len) ∧ offset + len ≤ bytes.length ∧
          unwrapDerOctetString bytes = .ok ((bytes.drop offset).take len)) := by
  have hbare : ∀ s : Bytes, s.length = 65 → s.head? = some 0x04 →
      unwrapDerOctetString s = .ok s := by
    intro s hlength hhead
    exact (unwrapDerOctetString_eq_ok_iff s s).mpr (Or.inl ⟨rfl, hlength, hhead⟩)
  refine ⟨fun s hs hne => unwrapDerOctetString_octetString hs hne, hbare,
    fun P attrs attrs' s hlength hhead hattrs hattrs' => ?_, unwrapDerOctetStringSlice_eq⟩
  have hwrapped : unwrapDerOctetString (Der.octetString s) = .ok s :=
    unwrapDerOctetString_octetString (by omega) (by omega)
  unfold ecSpkiOf
  rw [hattrs, hattrs']
  simp only [hwrapped, hbare s hlength hhead]

/-- A point of zeros, wrapped and bare. -/
theorem ec_point_unwrapped_zeros :
    unwrapDerOctetString (Der.octetString (0x04 :: List.replicate 64 0)) =
      unwrapDerOctetString (0x04 :: List.replicate 64 0) := by
  rw [ec_point_unwrapped.1 _ (by decide) (by decide), ec_point_unwrapped.2.1 _ (by decide) rfl]

/-- What is accepted, exactly.  A value that is no bare point is accepted as `s` if it begins with
the DER `OCTET STRING` of `s`, or with the tag, `0x81`, a length below 128 and `s`; in both cases
anything may follow. -/
theorem ec_point_accepted (bytes s : Bytes) : unwrapDerOctetString bytes = .ok s ↔
    (bytes = s ∧ s.length = 65 ∧ s.head? = some 0x04) ∨
    (bytes.length ≠ 65 ∧ ((s.length < 256 ∧ ∃ rest, bytes = Der.octetString s ++ rest) ∨
      (s.length < 128 ∧ ∃ rest, bytes = 0x04 :: 0x81 :: UInt8.ofNat s.length :: (s ++ rest)))) := by
  rw [unwrapDerOctetString_eq_ok_iff]
  have hder : ∀ rest, 0x04 :: (Der.lengthOctets s.length ++ (s ++ rest)) =
      Der.octetString s ++ rest := by
    intro rest
    simp only [Der.octetString, Der.tlv, List.cons_append, List.append_assoc]
  constructor
  · rintro (hbare | ⟨hbare, octets, rest, hform, rfl⟩)
    · exact Or.inl hbare
    · refine Or.inr ⟨fun hlength => hbare ⟨hlength, rfl⟩, ?_⟩
      rcases (lengthForm_iff s.length octets).mp hform with ⟨hn, rfl⟩ | ⟨hn, rfl⟩
      · exact Or.inl ⟨hn, rest, hder rest⟩
      · exact Or.inr ⟨hn, rest, rfl⟩
  · rintro (hbare | ⟨hlength, ⟨hn, rest, rfl⟩ | ⟨hn, rest, rfl⟩⟩)
    · exact Or.inl hbare
    · exact Or.inr ⟨fun h => hlength h.1, _, rest, lengthForm_lengthOctets hn, (hder rest).symm⟩
    · exact Or.inr ⟨fun h => hlength h.1, _, rest, .long (by omega), rfl⟩

/-- A byte after the encoding of `[7]` is ignored, and its length may be written in two octets;
neither value is a bare point or the encoding of `[7]`. -/
theorem trailing_and_nonminimal_accepted :
    (unwrapDerOctetString [0x04, 1, 7, 9] = .ok [7] ∧
      ¬ (([0x04, 1, 7, 9] = [7] ∧ bareEcPoint [7]) ∨ [0x04, 1, 7, 9] = Der.octetString [7])) ∧
    unwrapDerOctetString [0x04, 0x81, 1, 7] = .ok [7] ∧
      ¬ (([0x04, 0x81, 1, 7] = [7] ∧ bareEcPoint [7]) ∨
        [0x04, 0x81, 1, 7] = Der.octetString [7]) := by
  decide +kernel

end HsmProxy
