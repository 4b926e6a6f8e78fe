import Courier.Base64

/-!
# Reading back base 64

The decoder takes every written text back to the bytes it was written from. Its checks on the
length, on the padding and on unused bits never refuse one.
-/

namespace Courier.Base64

-- ---------------------------------------------------------------------------
-- Symbols
-- ---------------------------------------------------------------------------

def glyph (n : Nat) : UInt8 :=
  UInt8.ofNat (symbol n).toNat

theorem utf8EncodeChar_symbol (h : n < 64) : String.utf8EncodeChar (symbol n) = [glyph n] := by
  revert n
  decide

theorem sextet?_glyph (h : n < 64) : sextet? (glyph n) = some n := by
  revert n
  decide

theorem glyph_ne_padByte (h : n < 64) : glyph n ≠ padByte := by
  revert n
  decide

theorem utf8EncodeChar_padding : String.utf8EncodeChar padding = [padByte] := by
  decide

theorem sextetAt_glyph (h : n < 64) : sextetAt offset (glyph n) = .ok n := by
  rw [sextetAt, sextet?_glyph h]

-- ---------------------------------------------------------------------------
-- Groups
-- ---------------------------------------------------------------------------

def written (bs : Bytes) : Bytes :=
  (encode bs).flatMap String.utf8EncodeChar

theorem written_one (x : UInt8) :
    written [x] = [glyph (x.toNat / 4), glyph (x.toNat % 4 * 16), padByte, padByte] := by
  have hx := x.toNat_lt
  simp only [written, encode, List.flatMap_cons, List.flatMap_nil, utf8EncodeChar_padding]
  rw [utf8EncodeChar_symbol (by omega), utf8EncodeChar_symbol (by omega)]
  rfl

theorem written_two (x y : UInt8) :
    written [x, y] =
      [glyph (x.toNat / 4), glyph (x.toNat % 4 * 16 + y.toNat / 16), glyph (y.toNat % 16 * 4),
        padByte] := by
  have hx := x.toNat_lt
  have hy := y.toNat_lt
  simp only [written, encode, List.flatMap_cons, List.flatMap_nil, utf8EncodeChar_padding]
  rw [utf8EncodeChar_symbol (by omega), utf8EncodeChar_symbol (by omega),
    utf8EncodeChar_symbol (by omega)]
  rfl

theorem written_three (x y z : UInt8) (rest : Bytes) :
    written (x :: y :: z :: rest) =
      glyph (x.toNat / 4) :: glyph (x.toNat % 4 * 16 + y.toNat / 16) ::
        glyph (y.toNat % 16 * 4 + z.toNat / 64) :: glyph (z.toNat % 64) :: written rest := by
  have hx := x.toNat_lt
  have hy := y.toNat_lt
  have hz := z.toNat_lt
  simp only [written, encode, List.flatMap_cons]
  rw [utf8EncodeChar_symbol (by omega), utf8EncodeChar_symbol (by omega),
    utf8EncodeChar_symbol (by omega), utf8EncodeChar_symbol (by omega)]
  rfl

theorem unpack_sextets (x y z : UInt8) :
    unpack (x.toNat / 4) (x.toNat % 4 * 16 + y.toNat / 16) (y.toNat % 16 * 4 + z.toNat / 64)
      (z.toNat % 64) = [x, y, z] := by
  have hx := x.toNat_lt
  have hy := y.toNat_lt
  have hz := z.toNat_lt
  have first : x.toNat / 4 * 4 + (x.toNat % 4 * 16 + y.toNat / 16) / 16 = x.toNat := by omega
  have second : (x.toNat % 4 * 16 + y.toNat / 16) % 16 * 16 +
      (y.toNat % 16 * 4 + z.toNat / 64) / 4 = y.toNat := by omega
  have third : (y.toNat % 16 * 4 + z.toNat / 64) % 4 * 64 + z.toNat % 64 = z.toNat := by omega
  simp only [unpack, first, second, third, UInt8.ofNat_toNat]

theorem decodeLast_three (start : Nat) (ha : a < 64) (hb : b < 64) (hc : c < 64) (hd : d < 64) :
    decodeLast start [glyph a, glyph b, glyph c, glyph d] = .ok (unpack a b c d) := by
  simp only [decodeLast, lastSextets, glyph_ne_padByte, ha, hb, hc, hd, sextetAt_glyph, if_false]
  rfl

theorem decodeLast_two (start : Nat) (ha : a < 64) (hb : b < 64) (hc : c < 64)
    (unused : c % 4 = 0) :
    decodeLast start [glyph a, glyph b, glyph c, padByte] = .ok ((unpack a b c 0).take 2) := by
  simp only [decodeLast, lastSextets, glyph_ne_padByte, ha, hb, hc, sextetAt_glyph, if_false,
    if_true]
  simp [unused, bind, Except.bind, pure, Except.pure]

theorem decodeLast_one (start : Nat) (ha : a < 64) (hb : b < 64) (unused : b % 16 = 0) :
    decodeLast start [glyph a, glyph b, padByte, padByte] = .ok ((unpack a b 0 0).take 1) := by
  simp only [decodeLast, lastSextets, glyph_ne_padByte, ha, hb, sextetAt_glyph, if_false, if_true]
  simp [unused, bind, Except.bind, pure, Except.pure]

-- ---------------------------------------------------------------------------
-- Texts
-- ---------------------------------------------------------------------------

theorem decodeFrom_four (start : Nat) (a b c d : UInt8) :
    decodeFrom start [a, b, c, d] = decodeLast start [a, b, c, d] := rfl

theorem decodeFrom_more (start : Nat) (ha : a < 64) (hb : b < 64) (hc : c < 64) (hd : d < 64)
    (more : rest.isEmpty = false) :
    decodeFrom start (glyph a :: glyph b :: glyph c :: glyph d :: rest) =
      (decodeFrom (start + 4) rest).map (unpack a b c d ++ ·) := by
  rw [decodeFrom, more, sextetAt_glyph ha, sextetAt_glyph hb, sextetAt_glyph hc,
    sextetAt_glyph hd]
  cases decodeFrom (start + 4) rest <;> rfl

theorem isEmpty_written (bs : Bytes) : (written bs).isEmpty = bs.isEmpty := by
  cases bs using encode.fun_cases with
  | case1 => rfl
  | case2 x => rw [written_one]; rfl
  | case3 x y => rw [written_two]; rfl
  | case4 x y z rest => rw [written_three]; rfl

theorem decodeFrom_written (start : Nat) (bs : Bytes) : decodeFrom start (written bs) = .ok bs := by
  induction bs using encode.induct generalizing start with
  | case1 => rfl
  | case2 x =>
    have hx := x.toNat_lt
    have unpacked := unpack_sextets x 0 0
    simp only [UInt8.toNat_zero, Nat.zero_div, Nat.zero_mod, Nat.zero_mul, Nat.add_zero]
      at unpacked
    rw [written_one, decodeFrom_four, decodeLast_one start (by omega) (by omega) (by omega),
      unpacked]
    rfl
  | case3 x y =>
    have hx := x.toNat_lt
    have hy := y.toNat_lt
    have unpacked := unpack_sextets x y 0
    simp only [UInt8.toNat_zero, Nat.zero_div, Nat.zero_mod, Nat.add_zero] at unpacked
    rw [written_two, decodeFrom_four,
      decodeLast_two start (by omega) (by omega) (by omega) (by omega), unpacked]
    rfl
  | case4 x y z rest ih =>
    have hx := x.toNat_lt
    have hy := y.toNat_lt
    have hz := z.toNat_lt
    rw [written_three]
    cases hrest : rest.isEmpty with
    | true =>
      obtain rfl := List.isEmpty_iff.1 hrest
      exact (decodeLast_three start (by omega) (by omega) (by omega) (by omega)).trans
        (congrArg Except.ok (unpack_sextets x y z))
    | false =>
      rw [decodeFrom_more start (by omega) (by omega) (by omega) (by omega)
        ((isEmpty_written rest).trans hrest), ih, unpack_sextets]
      rfl

theorem length_written_mod (bs : Bytes) : (written bs).length % 4 = 0 := by
  induction bs using encode.induct with
  | case1 => rfl
  | case2 x => simp [written_one]
  | case3 x y => simp [written_two]
  | case4 x y z rest ih =>
    rw [written_three]
    simp only [List.length_cons]
    omega

theorem decodeBytes_of_length (h : input.length % 4 = 0) :
    decodeBytes input = decodeFrom 0 input := by
  rw [decodeBytes]
  cases hlast : input.getLast? with
  | none =>
    rw [List.getLast?_eq_none_iff.1 hlast]
    rfl
  | some b => simp only [h, Nat.zero_ne_one, false_and, if_false]

theorem decode_encode (bs : Bytes) : decode (encode bs) = .ok bs :=
  (decodeBytes_of_length (length_written_mod bs)).trans (decodeFrom_written 0 bs)

end Courier.Base64
