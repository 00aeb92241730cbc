/-
Text as it is stored in a file.

The decoder loses nothing of what is well formed: the bytes of a text decode to that text. In
particular printable bytes are the bytes of what they decode to. Where a terminated string ends is
known by where its bytes have their first zero.

* `Utf8.Decoder.foldl_feed_char`: one character, by the number of its bytes, and
  `decodeUtf8List_toUTF8`: a whole text;
* `toUTF8_decodeUtf8List`: bytes of ASCII characters;
* `length_toList_window`, `toList_window_succ`: the bytes of a window, as a list;
* `Terminated`: what a terminated string in a file is, and `terminated?_eq_some_iff`: such strings
  are read, and nothing else.
-/
import PeImage.Proofs.ScannedStrings
import PeImage.Text.Terminated

namespace PeImage

/-! ### Well-formed text -/

namespace Utf8

deriving instance DecidableEq for Pending

namespace Pending

/-- The first of two bytes. -/
lemma ofLead?_two : ∀ x < 32, 2 ≤ x →
    ofLead? (.ofNat (x + 192)) = some ⟨x, 0, 0x80, 0xBF⟩ := by decide

/-- The first of three bytes. The second one rules out overlong forms and surrogates. -/
lemma ofLead?_three : ∀ x < 16, ofLead? (.ofNat (x + 224)) =
    some ⟨x, 1, if x = 0 then 0xA0 else 0x80, if x = 13 then 0x9F else 0xBF⟩ := by decide

/-- The first of four bytes. The second one rules out overlong forms and what is behind the last
code point. -/
lemma ofLead?_four : ∀ x < 5, ofLead? (.ofNat (x + 240)) =
    some ⟨x, 2, if x = 0 then 0x90 else 0x80, if x = 4 then 0x8F else 0xBF⟩ := by decide

end Pending

namespace Decoder

variable {text : String}

lemma feed_ascii {n : ℕ} (h : n < 0x80) :
    feed ⟨text, none⟩ (.ofNat n) = ⟨text.push (Char.ofNat n), none⟩ := by
  have hn : (UInt8.ofNat n).toNat = n := UInt8.toNat_ofNat_of_lt' (h.trans (by decide))
  have hlt : UInt8.ofNat n < 0x80 := by
    rw [UInt8.lt_iff_toNat_lt, hn]
    exact h
  show start text _ = _
  rw [start, if_pos hlt, hn]

lemma feed_lead {n : ℕ} {p : Pending} (hge : 0x80 ≤ n) (hlt : n < 0x100)
    (h : Pending.ofLead? (.ofNat n) = some p) :
    feed ⟨text, none⟩ (.ofNat n) = ⟨text, some p⟩ := by
  have hn : (UInt8.ofNat n).toNat = n := UInt8.toNat_ofNat_of_lt' hlt
  have hnot : ¬ UInt8.ofNat n < 0x80 := by
    rw [UInt8.lt_iff_toNat_lt, hn]
    exact Nat.not_lt.mpr hge
  show start text _ = _
  rw [start, if_neg hnot, h]

/-- A byte that goes on with a character adds six bits. -/
lemma feed_pending {bits more x : ℕ} {low high : UInt8} (hx : x < 64) (hlow : low.toNat ≤ x + 128)
    (hhigh : x + 128 ≤ high.toNat) :
    feed ⟨text, some ⟨bits, more, low, high⟩⟩ (.ofNat (x + 128)) =
      if more = 0 then ⟨text.push (Char.ofNat (bits * 64 + x)), none⟩
      else ⟨text, some ⟨bits * 64 + x, more - 1, 0x80, 0xBF⟩⟩ := by
  have hn : (UInt8.ofNat (x + 128)).toNat = x + 128 :=
    UInt8.toNat_ofNat_of_lt' (show x + 128 < 2 ^ 8 by omega)
  have hbits : (UInt8.ofNat (x + 128) &&& 0x3F).toNat = x := by
    rw [UInt8.toNat_and, hn, show (0x3F : UInt8).toNat = 2 ^ 6 - 1 from rfl,
      Nat.and_two_pow_sub_one_eq_mod]
    omega
  have hin : low ≤ .ofNat (x + 128) ∧ .ofNat (x + 128) ≤ high := by
    rw [UInt8.le_iff_toNat_le, UInt8.le_iff_toNat_le, hn]
    exact ⟨hlow, hhigh⟩
  simp only [feed, if_pos hin, hbits]
  cases more <;> rfl

/-- A byte of which all values go on with the character. -/
lemma feed_pending_any {bits more : ℕ} (v : ℕ) :
    feed ⟨text, some ⟨bits, more, 0x80, 0xBF⟩⟩ (.ofNat (v % 64 + 128)) =
      if more = 0 then ⟨text.push (Char.ofNat (bits * 64 + v % 64)), none⟩
      else ⟨text, some ⟨bits * 64 + v % 64, more - 1, 0x80, 0xBF⟩⟩ := by
  have hv : v % 64 < 64 := Nat.mod_lt v (by decide)
  exact feed_pending hv (Nat.le_add_left 128 _) (show v % 64 + 128 ≤ 191 by omega)

/-- **The bytes of a character** are read as that character. -/
lemma foldl_feed_char (c : Char) :
    (String.utf8EncodeChar c).foldl feed ⟨text, none⟩ = ⟨text.push c, none⟩ := by
  have hc : Char.ofNat c.val.toNat = c := Char.ofNat_toNat c
  have hvalid : c.val.toNat < 0xD800 ∨ 0xDFFF < c.val.toNat ∧ c.val.toNat < 0x110000 := c.valid
  unfold String.utf8EncodeChar
  dsimp only
  generalize c.val.toNat = v at hc hvalid
  split_ifs with h1 h2 h3
  · -- one byte
    rw [List.foldl_cons, feed_ascii (by omega), hc, List.foldl_nil]
  · -- two bytes
    have hlead := Pending.ofLead?_two (v / 64 % 32) (by omega) (by omega)
    have hbits : v / 64 % 32 * 64 + v % 64 = v := by omega
    rw [List.foldl_cons, feed_lead (by omega) (by omega) hlead, List.foldl_cons, feed_pending_any,
      List.foldl_nil, if_pos rfl, hbits, hc]
  · -- three bytes, of which the second one is in a range of its own
    have hlead := Pending.ofLead?_three (v / 4096 % 16) (by omega)
    have hbits : (v / 4096 % 16 * 64 + v / 64 % 64) * 64 + v % 64 = v := by omega
    have hlow : (if v / 4096 % 16 = 0 then 0xA0 else 0x80 : UInt8).toNat ≤ v / 64 % 64 + 128 := by
      split_ifs <;> simp only [UInt8.reduceToNat] <;> omega
    have hhigh : v / 64 % 64 + 128 ≤
        (if v / 4096 % 16 = 13 then 0x9F else 0xBF : UInt8).toNat := by
      split_ifs <;> simp only [UInt8.reduceToNat] <;> omega
    rw [List.foldl_cons, feed_lead (by omega) (by omega) hlead, List.foldl_cons,
      feed_pending (Nat.mod_lt _ (by decide)) hlow hhigh, if_neg one_ne_zero, List.foldl_cons,
      feed_pending_any, List.foldl_nil, if_pos rfl, hbits, hc]
  · -- four bytes, of which the second one is in a range of its own
    have hlead := Pending.ofLead?_four (v / 262144 % 8) (by omega)
    have hbits : ((v / 262144 % 8 * 64 + v / 4096 % 64) * 64 + v / 64 % 64) * 64 + v % 64 = v := by
      omega
    have hlow : (if v / 262144 % 8 = 0 then 0x90 else 0x80 : UInt8).toNat ≤
        v / 4096 % 64 + 128 := by
      split_ifs <;> simp only [UInt8.reduceToNat] <;> omega
    have hhigh : v / 4096 % 64 + 128 ≤
        (if v / 262144 % 8 = 4 then 0x8F else 0xBF : UInt8).toNat := by
      split_ifs <;> simp only [UInt8.reduceToNat] <;> omega
    rw [List.foldl_cons, feed_lead (by omega) (by omega) hlead, List.foldl_cons,
      feed_pending (Nat.mod_lt _ (by decide)) hlow hhigh, if_neg two_ne_zero, List.foldl_cons,
      feed_pending_any, if_neg (by decide), List.foldl_cons, feed_pending_any, List.foldl_nil,
      if_pos rfl, hbits, hc]

/-- The bytes of characters, one behind the other. -/
lemma foldl_feed_flatMap (l : List Char) (text : String) :
    (l.flatMap String.utf8EncodeChar).foldl feed ⟨text, none⟩ =
      ⟨text ++ String.ofList l, none⟩ := by
  induction l generalizing text with
  | nil => simp
  | cons c rest ih =>
      rw [List.flatMap_cons, List.foldl_append, foldl_feed_char, ih, String.push_eq_append,
        String.append_assoc, String.ofList_cons]

end Decoder

end Utf8

/-- **The bytes of a text** decode to that text. -/
theorem decodeUtf8List_toUTF8 (s : String) : decodeUtf8List s.toUTF8.data.toList = s := by
  have hbytes : s.toUTF8.data.toList = s.toList.flatMap String.utf8EncodeChar := by
    rw [String.toUTF8, ← String.utf8Encode_toList, List.utf8Encode, List.toList_data_toByteArray]
  rw [decodeUtf8List, hbytes, Utf8.Decoder.foldl_feed_flatMap]
  show "" ++ String.ofList s.toList = s
  rw [String.empty_append, String.ofList_toList]

/-- **Bytes of ASCII characters** are the bytes of what they decode to. -/
lemma toUTF8_decodeUtf8List {l : List UInt8} (h : ∀ b ∈ l, b < 0x80) :
    (decodeUtf8List l).toUTF8.data.toList = l := by
  have hbyte (b : UInt8) (hb : b < 0x80) : String.utf8EncodeChar (Char.ofNat b.toNat) = [b] := by
    have hlt : b.toNat < 0x80 := UInt8.lt_iff_toNat_lt.mp hb
    have hval : (Char.ofNat b.toNat).val.toNat = b.toNat := by
      rw [← Char.toNat, Char.toNat_ofNat, if_pos (.inl (by omega))]
    rw [String.utf8EncodeChar, hval, if_pos (by omega), UInt8.ofNat_toNat]
  have hchars : (l.map fun b => Char.ofNat b.toNat).flatMap String.utf8EncodeChar = l := by
    induction l with
    | nil => rfl
    | cons b rest ih =>
        rw [List.forall_mem_cons] at h
        rw [List.map_cons, List.flatMap_cons, hbyte b h.1, ih h.2, List.singleton_append]
  have htext : (String.ofList (l.map fun b => Char.ofNat b.toNat)).toUTF8.data.toList = l := by
    rw [String.toUTF8, String.toByteArray_ofList, List.utf8Encode, hchars,
      List.toList_data_toByteArray]
  conv_lhs => rw [← htext]
  rw [decodeUtf8List_toUTF8, htext]

/-! ### Terminated strings -/

/-- The bytes of a window, as a list. -/
lemma length_toList_window (file : ByteArray) (off n : ℕ) :
    (window file off n).data.toList.length = min n (file.size - off) :=
  Array.length_toList.trans (size_window file off n)

/-- A window that is longer by one byte. -/
lemma toList_window_succ {file : ByteArray} {off n : ℕ} (h : off + n < file.size) :
    (window file off (n + 1)).data.toList =
      (window file off n).data.toList ++ [byteAt file (off + n)] := by
  have hn : (window file off n).data.toList.length = n := by
    rw [length_toList_window]
    omega
  have hsucc : (window file off (n + 1)).data.toList.length = n + 1 := by
    rw [length_toList_window]
    omega
  refine List.ext_getElem ?_ fun k hk hk' => ?_
  · rw [hsucc, List.length_append, hn, List.length_singleton]
  · rw [hsucc] at hk
    rw [getElem_toList, byteAt_window, if_pos hk, List.getElem_append]
    split_ifs with hlt
    · rw [hn] at hlt
      rw [getElem_toList, byteAt_window, if_pos hlt]
    · rw [hn] at hlt
      rw [List.getElem_singleton, show k = n by omega]

/-- A string that the rules take from a position of a file. -/
structure Terminated (rules : TerminatedRules) (file : ByteArray) (off : ℕ) (text : List UInt8) :
    Prop where
  /-- It stands at the position, -/
  stored : (window file off text.length).data.toList = text
  /-- has no zero in it, -/
  ne_zero : ∀ b ∈ text, b ≠ 0
  /-- is printable where it must be, -/
  printable : rules.printable = true → ∀ b ∈ text, isPrintable b = true
  /-- and ends at a zero within the limit, or else, where no zero is asked for, at the limit or the
  end of the file. -/
  ends : (text.length < rules.limit ∧ off + text.length < file.size ∧
      byteAt file (off + text.length) = 0) ∨
    (rules.terminated = false ∧ text.length = min rules.limit (file.size - off))

section

variable {rules : TerminatedRules} {file : ByteArray} {off : ℕ} {text : List UInt8}

lemma Terminated.getElem_eq (h : Terminated rules file off text) {k : ℕ} (hk : k < text.length) :
    text[k] = byteAt file (off + k) := by
  have hwindow : byteAt (window file off text.length) k = byteAt file (off + k) := by
    rw [byteAt_window, if_pos hk]
  have hk' : k < (window file off text.length).data.toList.length := by rwa [h.stored]
  rw [← hwindow, ← getElem_toList hk']
  exact List.getElem_of_eq h.stored.symm hk

/-- A string ends where the scan for a zero ends. -/
lemma Terminated.zeroFrom_eq (h : Terminated rules file off text) :
    zeroFrom file off (min rules.limit (file.size - off)) = off + text.length := by
  set n := min rules.limit (file.size - off)
  have hge := le_zeroFrom file off n
  have hle := zeroFrom_le file off n
  have hlength : text.length ≤ n := by
    rcases h.ends with ⟨hlimit, hsize, -⟩ | ⟨-, hlast⟩ <;> omega
  rcases Nat.lt_trichotomy (zeroFrom file off n) (off + text.length) with hlt | heq | hgt
  · -- there is no zero within the string
    have hk : zeroFrom file off n - off < text.length := by omega
    have hzero : byteAt file (zeroFrom file off n) = 0 := byteAt_zeroFrom (by omega)
    have hbyte := h.getElem_eq hk
    rw [Nat.add_sub_cancel' hge, hzero] at hbyte
    exact absurd hbyte (h.ne_zero _ (List.getElem_mem hk))
  · exact heq
  · -- and none is passed at its end
    rcases h.ends with ⟨-, -, hzero⟩ | ⟨-, hlast⟩
    · exact absurd hzero (byteAt_ne_zero_of_lt_zeroFrom (Nat.le_add_right _ _) hgt)
    · omega

/-- The bytes up to where the scan ends are a string, unless a rule speaks against it. -/
lemma terminated_window {n e : ℕ} (hn : min rules.limit (file.size - off) = n)
    (he : zeroFrom file off n = off + e)
    (hzero : rules.terminated = true → e ≠ n)
    (hprint : rules.printable = true → (window file off e).data.all isPrintable = true) :
    Terminated rules file off (window file off e).data.toList := by
  have hle := zeroFrom_le file off n
  have hlength : (window file off e).data.toList.length = e := by
    rw [length_toList_window]
    omega
  constructor
  case stored => rw [hlength]
  case ne_zero =>
    intro b hb
    obtain ⟨k, hk, rfl⟩ := List.mem_iff_getElem.mp hb
    rw [hlength] at hk
    rw [getElem_toList, byteAt_window, if_pos hk]
    exact byteAt_ne_zero_of_lt_zeroFrom (Nat.le_add_right off k)
      (show off + k < zeroFrom file off n by omega)
  case printable =>
    intro hp b hb
    exact Array.all_eq_true_iff_forall_mem.mp (hprint hp) b (Array.mem_toList_iff.mp hb)
  case ends =>
    rw [hlength]
    by_cases hlast : e = n
    · refine .inr ⟨?_, by omega⟩
      rw [← Bool.not_eq_true]
      exact fun ht => hzero ht hlast
    · refine .inl ⟨by omega, by omega, ?_⟩
      rw [← he]
      exact byteAt_zeroFrom (by omega)

/-- **What is read of a terminated string**: the string that the rules take, if there is one. -/
theorem terminated?_eq_some_iff {bytes : ByteArray} :
    terminated? rules file off = some bytes ↔ Terminated rules file off bytes.data.toList := by
  have hge := le_zeroFrom file off (min rules.limit (file.size - off))
  obtain ⟨e, he⟩ := Nat.exists_eq_add_of_le hge
  unfold terminated?
  dsimp only
  simp only [he, Bool.and_eq_true, beq_iff_eq, Bool.not_eq_true']
  constructor
  · intro h
    split_ifs at h with hcut hprint
    obtain rfl := Option.some.inj h
    refine terminated_window rfl he (fun ht hlast => hcut ⟨ht, by omega⟩) fun hp => ?_
    rw [← Bool.not_eq_false]
    exact fun hnot => hprint ⟨hp, hnot⟩
  · intro h
    have hstop := h.zeroFrom_eq
    obtain rfl : e = bytes.data.toList.length := by omega
    have hbytes : file.extract off (off + bytes.data.toList.length) = bytes :=
      ByteArray.ext (Array.toList_inj.mp h.stored)
    rw [hbytes, if_neg, if_neg]
    · rintro ⟨hp, hnot⟩
      have hall := Array.all_eq_true_iff_forall_mem.mpr fun b hb =>
        h.printable hp b (Array.mem_toList_iff.mpr hb)
      rw [hall] at hnot
      cases hnot
    · rintro ⟨ht, hlast⟩
      rcases h.ends with ⟨hlimit, hsize, -⟩ | ⟨hno, -⟩
      · omega
      · rw [hno] at ht
        cases ht

end

end PeImage
