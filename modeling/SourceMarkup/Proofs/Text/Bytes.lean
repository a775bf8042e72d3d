import SourceMarkup.Scan.Basic

/-!
# Texts byte by byte

A scan reads every byte as a character. `byteChars` is what it reads of a whole
text. An ASCII character is read as itself, and any other character as several
characters beyond ASCII, so a text of ASCII characters begins the bytes of a
source where it begins the source, and a condition that tells characters beyond
ASCII apart from no others of them holds for a character where it holds for its
bytes.
-/

namespace SourceMarkup

namespace Text

def charBytes (c : Char) : Text :=
  (String.utf8EncodeChar c).map charOfByte

def byteChars (t : Text) : Text :=
  t.toBytes.map charOfByte

def isAscii (t : Text) : Bool :=
  t.all fun c => !isBeyondAscii c

theorem isAscii_cons_iff {c : Char} {cs : Text} :
    isAscii (c :: cs) = true ↔ isBeyondAscii c = false ∧ isAscii cs = true := by
  rw [isAscii, List.all_cons, Bool.and_eq_true, Bool.not_eq_true', isAscii]

/-- A condition that gives one answer for all characters beyond ASCII. -/
def TellsAsciiOnly (p : Char → Bool) : Prop :=
  ∀ c d, isBeyondAscii c → isBeyondAscii d → p c = p d

theorem ne_of_pred {p : Char → Bool} {c d : Char} (hc : p c) (hd : p d = false) :
    c ≠ d := by
  rintro rfl
  rw [hc] at hd
  contradiction

theorem ne_of_beyond {c d : Char} (hc : isBeyondAscii c)
    (hd : isBeyondAscii d = false) : c ≠ d :=
  ne_of_pred hc hd

theorem toNat_le_of_le {c d : Char} (h : c ≤ d) : c.toNat ≤ d.toNat := by
  rwa [Char.le_def, UInt32.le_iff_toNat_le] at h

theorem isAsciiLetter_of_beyond {c : Char} (h : isBeyondAscii c) :
    isAsciiLetter c = false := by
  have hc : 128 ≤ c.toNat := by simpa [isBeyondAscii] using h
  have hnot : ∀ d : Char, d.toNat < 128 → ¬ c ≤ d := by
    intro d hd hle
    have hcd := toNat_le_of_le hle
    omega
  simp [isAsciiLetter, hnot 'z' (by decide), hnot 'Z' (by decide)]

theorem isAsciiDigit_of_beyond {c : Char} (h : isBeyondAscii c) :
    isAsciiDigit c = false := by
  have hc : 128 ≤ c.toNat := by simpa [isBeyondAscii] using h
  have hnot : ¬ c ≤ '9' := by
    intro hle
    have hcd : c.toNat ≤ 57 := toNat_le_of_le hle
    omega
  simp [isAsciiDigit, hnot]

theorem tells_of_true {p : Char → Bool} (h : ∀ c, isBeyondAscii c → p c = true) :
    TellsAsciiOnly p :=
  fun c d hc hd => (h c hc).trans (h d hd).symm

theorem tells_of_false {p : Char → Bool} (h : ∀ c, isBeyondAscii c → p c = false) :
    TellsAsciiOnly p :=
  fun c d hc hd => (h c hc).trans (h d hd).symm

theorem tells_bne {c : Char} (hc : isBeyondAscii c = false) : TellsAsciiOnly (· != c) :=
  tells_of_true fun _ hd => bne_iff_ne.2 (ne_of_beyond hd hc)

theorem tells_isAsciiLetter : TellsAsciiOnly isAsciiLetter :=
  tells_of_false fun _ => isAsciiLetter_of_beyond

theorem tells_isAsciiDigit : TellsAsciiOnly isAsciiDigit :=
  tells_of_false fun _ => isAsciiDigit_of_beyond

theorem isAsciiAlnum_of_beyond {c : Char} (h : isBeyondAscii c) :
    isAsciiAlnum c = false := by
  rw [isAsciiAlnum, isAsciiLetter_of_beyond h, isAsciiDigit_of_beyond h, Bool.or_false]

theorem tells_isAsciiAlnum : TellsAsciiOnly isAsciiAlnum :=
  tells_of_false fun _ => isAsciiAlnum_of_beyond

theorem toNat_charOfByte (b : UInt8) : (charOfByte b).toNat = b.toNat := by
  have hb : b.toNat < 256 := b.toNat_lt
  have hvalid : b.toNat.isValidChar := Or.inl (by omega)
  rw [charOfByte, Char.ofNat, dif_pos hvalid]
  rfl

theorem charOfByte_toNat {c : Char} (h : c.toNat < 128) :
    charOfByte (UInt8.ofNat c.toNat) = c := by
  have hb : (UInt8.ofNat c.toNat).toNat = c.toNat := by
    rw [UInt8.toNat_ofNat']
    omega
  rw [charOfByte, hb, Char.ofNat_toNat]

/-- An ASCII character is read as itself. -/
theorem charBytes_of_ascii {c : Char} (h : isBeyondAscii c = false) :
    charBytes c = [c] := by
  have hc : c.toNat < 128 := by simpa [isBeyondAscii] using h
  have hle : c.val.toNat ≤ 0x7f := by
    change c.toNat ≤ 127
    omega
  rw [charBytes, String.utf8EncodeChar, if_pos hle]
  simpa using charOfByte_toNat hc

/-- The bytes of a character beyond ASCII lie beyond ASCII. -/
theorem isBeyondAscii_of_mem_charBytes {c d : Char} (h : isBeyondAscii c)
    (hd : d ∈ charBytes c) : isBeyondAscii d := by
  have hc : 128 ≤ c.val.toNat := by simpa [isBeyondAscii] using h
  obtain ⟨b, hb, rfl⟩ := List.mem_map.1 hd
  have hbyte : 128 ≤ b.toNat := by
    rw [String.utf8EncodeChar, if_neg (by omega)] at hb
    split at hb
    · simp only [List.mem_cons, List.not_mem_nil, or_false] at hb
      rcases hb with rfl | rfl <;> (rw [UInt8.toNat_ofNat']; omega)
    · split at hb
      · simp only [List.mem_cons, List.not_mem_nil, or_false] at hb
        rcases hb with rfl | rfl | rfl <;> (rw [UInt8.toNat_ofNat']; omega)
      · simp only [List.mem_cons, List.not_mem_nil, or_false] at hb
        rcases hb with rfl | rfl | rfl | rfl <;> (rw [UInt8.toNat_ofNat']; omega)
  simpa [isBeyondAscii, toNat_charOfByte] using hbyte

@[simp] theorem length_charBytes (c : Char) : (charBytes c).length = c.utf8Size := by
  simp [charBytes]

theorem utf8Size_of_ascii {c : Char} (h : isBeyondAscii c = false) :
    c.utf8Size = 1 := by
  rw [← length_charBytes, charBytes_of_ascii h, List.length_singleton]

@[simp] theorem byteChars_nil : byteChars [] = [] := rfl

@[simp] theorem byteChars_cons (c : Char) (cs : Text) :
    byteChars (c :: cs) = charBytes c ++ byteChars cs := by
  simp [byteChars, charBytes]

@[simp] theorem byteChars_append (s t : Text) :
    byteChars (s ++ t) = byteChars s ++ byteChars t := by
  simp [byteChars]

@[simp] theorem length_byteChars (t : Text) : (byteChars t).length = t.byteLength := by
  simp [byteChars, length_toBytes]

/-- The first byte of a character beyond ASCII, and the rest of its bytes. -/
theorem charBytes_eq_cons (c : Char) : ∃ d ds, charBytes c = d :: ds := by
  have hpos : 0 < (charBytes c).length := by
    rw [length_charBytes]
    exact c.utf8Size_pos
  exact List.exists_cons_of_length_pos hpos

theorem byteLength_of_ascii {t : Text} (h : t.isAscii) : t.byteLength = t.length := by
  induction t with
  | nil => rfl
  | cons c cs ih =>
      obtain ⟨hc, hcs⟩ := isAscii_cons_iff.1 h
      rw [byteLength_cons, utf8Size_of_ascii hc, ih hcs, List.length_cons, Nat.add_comm]

/-- ASCII characters begin the bytes of a text where they begin the text. -/
theorem isPrefixOf_byteChars {p : Text} (hp : p.isAscii) (t : Text) :
    p.isPrefixOf (byteChars t) = p.isPrefixOf t := by
  induction p generalizing t with
  | nil => simp
  | cons c cs ih =>
      obtain ⟨hc, hcs⟩ := isAscii_cons_iff.1 hp
      cases t with
      | nil => simp
      | cons d ds =>
          cases hd : isBeyondAscii d with
          | false =>
              rw [byteChars_cons, charBytes_of_ascii hd, List.singleton_append,
                List.isPrefixOf_cons_cons, List.isPrefixOf_cons_cons, ih hcs]
          | true =>
              obtain ⟨e, es, hes⟩ := charBytes_eq_cons d
              have he : isBeyondAscii e :=
                isBeyondAscii_of_mem_charBytes hd (hes ▸ List.mem_cons_self)
              have hce : c ≠ e := (ne_of_beyond he hc).symm
              have hcd : c ≠ d := (ne_of_beyond hd hc).symm
              rw [byteChars_cons, hes, List.cons_append, List.isPrefixOf_cons_cons,
                List.isPrefixOf_cons_cons, beq_false_of_ne hce, beq_false_of_ne hcd,
                Bool.false_and, Bool.false_and]

/-- A text is read as an ASCII text only if it is that text. -/
theorem byteChars_eq_iff {p : Text} (hp : p.isAscii) (t : Text) :
    byteChars t = p ↔ t = p := by
  induction p generalizing t with
  | nil =>
      cases t with
      | nil => rfl
      | cons d ds =>
          obtain ⟨e, es, hes⟩ := charBytes_eq_cons d
          simp [hes]
  | cons c cs ih =>
      obtain ⟨hc, hcs⟩ := isAscii_cons_iff.1 hp
      cases t with
      | nil => simp
      | cons d ds =>
          cases hd : isBeyondAscii d with
          | false => simp [charBytes_of_ascii hd, ih hcs]
          | true =>
              obtain ⟨e, es, hes⟩ := charBytes_eq_cons d
              have he : isBeyondAscii e :=
                isBeyondAscii_of_mem_charBytes hd (hes ▸ List.mem_cons_self)
              have hce : e ≠ c := ne_of_beyond he hc
              have hcd : d ≠ c := ne_of_beyond hd hc
              simp [hes, hce, hcd]

theorem prefix_byteChars_iff {p : Text} (hp : p.isAscii) (t : Text) :
    p <+: byteChars t ↔ p <+: t := by
  rw [← List.isPrefixOf_iff_prefix, isPrefixOf_byteChars hp, List.isPrefixOf_iff_prefix]

theorem byteChars_of_isAscii {t : Text} (h : t.isAscii) : byteChars t = t :=
  (byteChars_eq_iff h t).2 rfl

theorem byteChars_cons_of_ascii {c : Char} (hc : isBeyondAscii c = false) (cs : Text) :
    byteChars (c :: cs) = c :: byteChars cs := by
  rw [byteChars_cons, charBytes_of_ascii hc, List.singleton_append]

/-- An ASCII character is read nowhere but where it stands. -/
theorem exists_of_byteChars_eq {c : Char} (hc : isBeyondAscii c = false) {t u v : Text}
    (h : byteChars t = u ++ c :: v) :
    ∃ front back, t = front ++ c :: back ∧ byteChars front = u ∧ byteChars back = v := by
  induction t generalizing u with
  | nil => simp at h
  | cons d ds ih =>
      rw [byteChars_cons] at h
      rcases List.append_eq_append_iff.1 h with ⟨w, rfl, hw⟩ | ⟨w, hd, hw⟩
      · obtain ⟨front, back, rfl, rfl, rfl⟩ := ih hw
        exact ⟨d :: front, back, rfl, byteChars_cons d front, rfl⟩
      cases w with
      | nil =>
          obtain ⟨front, back, rfl, hfront, rfl⟩ := ih (u := []) hw.symm
          refine ⟨d :: front, back, rfl, ?_, rfl⟩
          rw [byteChars_cons, hfront, hd, List.append_nil, List.append_nil]
      | cons e es =>
          obtain ⟨rfl, rfl⟩ := List.cons.inj hw
          have hascii : isBeyondAscii d = false := by
            rw [Bool.eq_false_iff]
            intro hbeyond
            have hmem : c ∈ charBytes d := hd ▸ List.mem_append_right u List.mem_cons_self
            rw [isBeyondAscii_of_mem_charBytes hbeyond hmem] at hc
            contradiction
          rw [charBytes_of_ascii hascii, eq_comm, List.append_eq_singleton_iff] at hd
          obtain ⟨rfl, hes⟩ | ⟨-, hes⟩ := hd
          · obtain ⟨rfl, rfl⟩ := List.cons.inj hes
            exact ⟨[], ds, rfl, rfl, rfl⟩
          · cases hes

theorem mem_of_mem_byteChars {c : Char} (hc : isBeyondAscii c = false) {t : Text}
    (h : c ∈ byteChars t) : c ∈ t := by
  obtain ⟨u, v, huv⟩ := List.append_of_mem h
  obtain ⟨front, back, rfl, -, -⟩ := exists_of_byteChars_eq hc huv
  exact List.mem_append_right front List.mem_cons_self

/-- A condition that tells ASCII characters apart sees a character in each of its
bytes. -/
theorem TellsAsciiOnly.apply_of_mem {p : Char → Bool} (hp : TellsAsciiOnly p) {c d : Char}
    (hd : d ∈ charBytes c) : p d = p c := by
  cases hc : isBeyondAscii c with
  | false =>
      rw [charBytes_of_ascii hc] at hd
      rw [List.mem_singleton.1 hd]
  | true => exact hp d c (isBeyondAscii_of_mem_charBytes hc hd) hc

theorem TellsAsciiOnly.forall_mem {p : Char → Bool} (hp : TellsAsciiOnly p) {t : Text}
    (h : ∀ c ∈ t, p c = true) : ∀ d ∈ byteChars t, p d = true := by
  induction t with
  | nil => exact fun d hd => absurd hd List.not_mem_nil
  | cons c cs ih =>
      obtain ⟨hc, hcs⟩ := List.forall_mem_cons.1 h
      intro d hd
      rw [byteChars_cons] at hd
      rcases List.mem_append.1 hd with hd | hd
      · rw [hp.apply_of_mem hd, hc]
      · exact ih hcs d hd

theorem TellsAsciiOnly.forall_of_bytes {p : Char → Bool} (hp : TellsAsciiOnly p) {t : Text}
    (h : ∀ d ∈ byteChars t, p d = true) : ∀ c ∈ t, p c = true := by
  intro c hc
  obtain ⟨d, ds, hds⟩ := charBytes_eq_cons c
  have hd : d ∈ charBytes c := hds ▸ List.mem_cons_self
  obtain ⟨front, back, rfl⟩ := List.append_of_mem hc
  rw [← hp.apply_of_mem hd]
  refine h d ?_
  rw [byteChars_append, byteChars_cons]
  exact List.mem_append_right _ (List.mem_append_left _ hd)

theorem TellsAsciiOnly.head?_any {p : Char → Bool} (hp : TellsAsciiOnly p) (t : Text) :
    (byteChars t).head?.any p = t.head?.any p := by
  cases t with
  | nil => rfl
  | cons c cs =>
      obtain ⟨d, ds, hds⟩ := charBytes_eq_cons c
      rw [byteChars_cons, hds, List.cons_append, List.head?_cons, List.head?_cons,
        Option.any_some, Option.any_some]
      exact hp.apply_of_mem (hds ▸ List.mem_cons_self)

theorem TellsAsciiOnly.getLast?_any {p : Char → Bool} (hp : TellsAsciiOnly p) (t : Text) :
    (byteChars t).getLast?.any p = t.getLast?.any p := by
  rcases List.eq_nil_or_concat t with rfl | ⟨front, c, rfl⟩
  · rfl
  · obtain ⟨d, ds, hds⟩ := charBytes_eq_cons c
    have hne : charBytes c ≠ [] := hds ▸ List.cons_ne_nil d ds
    have hbytes : byteChars [c] = charBytes c := by
      rw [byteChars_cons, byteChars_nil, List.append_nil]
    rw [List.concat_eq_append, byteChars_append, hbytes, List.getLast?_append,
      List.getLast?_eq_some_getLast hne, List.getLast?_concat, Option.some_or,
      Option.any_some, Option.any_some]
    exact hp.apply_of_mem (List.getLast_mem hne)

end Text

end SourceMarkup
