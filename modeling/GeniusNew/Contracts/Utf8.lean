import GeniusNew.Contracts.Wire

/-! # UTF-8 round trip

What `encodeUtf8` writes `decodeUtf8` reads back, so two texts with the same bytes are the
same text.
-/

namespace GeniusNew

open Json

section Units

variable {n low value : Nat}

theorem toNat_unit (small : n < 0x100) : (UInt8.ofNat n).toNat = n := by
  rw [UInt8.toNat_ofNat']
  exact Nat.mod_eq_of_lt small

theorem continuation_unit (n : Nat) : continuation (UInt8.ofNat (0x80 + n % 0x40)) =
    some (n % 0x40) := by
  have bound : n % 0x40 < 0x40 := Nat.mod_lt _ (by decide)
  have byte : (UInt8.ofNat (0x80 + n % 0x40)).toNat = 0x80 + n % 0x40 := toNat_unit (by omega)
  rw [continuation, byte, if_pos (by omega)]
  exact congrArg some (Nat.add_sub_cancel_left _ _)

theorem codePoint_val {c : CodePoint} (least : low ≤ c.val)
    (scalar : ¬ (0xd800 ≤ c.val ∧ c.val ≤ 0xdfff)) (same : value = c.val) :
    codePoint low value = some c := by
  subst same
  have bound : c.val < 0x110000 := c.isLt
  rw [codePoint, if_pos ⟨least, bound, scalar⟩]
  apply congrArg some
  apply Fin.ext
  rw [Fin.val_ofNat]
  exact Nat.mod_eq_of_lt bound

end Units

section Read

variable {c : CodePoint} {rest : Bytes} {text : Str}

theorem decodeUtf8_one (read : decodeUtf8 rest = some text) (small : c.val < 0x80) :
    decodeUtf8 (UInt8.ofNat c.val :: rest) = some (c :: text) := by
  have bound : c.val < 0x110000 := c.isLt
  have first : (UInt8.ofNat c.val).toNat = c.val := toNat_unit (by omega)
  have point : Fin.ofNat 0x110000 c.val = c := Fin.ext (Nat.mod_eq_of_lt bound)
  unfold decodeUtf8
  rw [first, if_pos small, read, point]
  rfl

theorem decodeUtf8_two (read : decodeUtf8 rest = some text) (least : 0x80 ≤ c.val)
    (small : c.val < 0x800) :
    decodeUtf8 (UInt8.ofNat (0xc0 + c.val / 0x40) :: UInt8.ofNat (0x80 + c.val % 0x40) :: rest) =
      some (c :: text) := by
  have first : (UInt8.ofNat (0xc0 + c.val / 0x40)).toNat = 0xc0 + c.val / 0x40 :=
    toNat_unit (by omega)
  have point : codePoint 0x80 ((0xc0 + c.val / 0x40 - 0xc0) * 0x40 + c.val % 0x40) = some c :=
    codePoint_val least (by omega) (by omega)
  rw [decodeUtf8, first, if_neg (by omega), if_pos (by omega)]
  refine Option.bind_eq_some_iff.mpr ⟨_, continuation_unit _, ?_⟩
  exact Option.bind_eq_some_iff.mpr ⟨_, point, Option.bind_eq_some_iff.mpr ⟨_, read, rfl⟩⟩

theorem decodeUtf8_three (read : decodeUtf8 rest = some text) (least : 0x800 ≤ c.val)
    (small : c.val < 0x10000) (scalar : ¬ (0xd800 ≤ c.val ∧ c.val ≤ 0xdfff)) :
    decodeUtf8 (UInt8.ofNat (0xe0 + c.val / 0x1000) :: UInt8.ofNat (0x80 + c.val / 0x40 % 0x40) ::
      UInt8.ofNat (0x80 + c.val % 0x40) :: rest) = some (c :: text) := by
  have first : (UInt8.ofNat (0xe0 + c.val / 0x1000)).toNat = 0xe0 + c.val / 0x1000 :=
    toNat_unit (by omega)
  have point : codePoint 0x800 ((0xe0 + c.val / 0x1000 - 0xe0) * 0x1000 +
      c.val / 0x40 % 0x40 * 0x40 + c.val % 0x40) = some c :=
    codePoint_val least scalar (by omega)
  rw [decodeUtf8, first, if_neg (by omega), if_neg (by omega), if_pos (by omega)]
  refine Option.bind_eq_some_iff.mpr ⟨_, continuation_unit _, ?_⟩
  refine Option.bind_eq_some_iff.mpr ⟨_, continuation_unit _, ?_⟩
  exact Option.bind_eq_some_iff.mpr ⟨_, point, Option.bind_eq_some_iff.mpr ⟨_, read, rfl⟩⟩

theorem decodeUtf8_four (read : decodeUtf8 rest = some text) (least : 0x10000 ≤ c.val) :
    decodeUtf8 (UInt8.ofNat (0xf0 + c.val / 0x40000) ::
      UInt8.ofNat (0x80 + c.val / 0x1000 % 0x40) :: UInt8.ofNat (0x80 + c.val / 0x40 % 0x40) ::
      UInt8.ofNat (0x80 + c.val % 0x40) :: rest) = some (c :: text) := by
  have bound : c.val < 0x110000 := c.isLt
  have first : (UInt8.ofNat (0xf0 + c.val / 0x40000)).toNat = 0xf0 + c.val / 0x40000 :=
    toNat_unit (by omega)
  have point : codePoint 0x10000 ((0xf0 + c.val / 0x40000 - 0xf0) * 0x40000 +
      c.val / 0x1000 % 0x40 * 0x1000 + c.val / 0x40 % 0x40 * 0x40 + c.val % 0x40) = some c :=
    codePoint_val least (by omega) (by omega)
  rw [decodeUtf8, first, if_neg (by omega), if_neg (by omega), if_neg (by omega), if_pos (by omega)]
  refine Option.bind_eq_some_iff.mpr ⟨_, continuation_unit _, ?_⟩
  refine Option.bind_eq_some_iff.mpr ⟨_, continuation_unit _, ?_⟩
  refine Option.bind_eq_some_iff.mpr ⟨_, continuation_unit _, ?_⟩
  exact Option.bind_eq_some_iff.mpr ⟨_, point, Option.bind_eq_some_iff.mpr ⟨_, read, rfl⟩⟩

end Read

theorem decodeUtf8_encodeUtf8 {text : Str} {data : Bytes} (encoded : encodeUtf8 text = some data) :
    decodeUtf8 data = some text := by
  induction text generalizing data with
  | nil =>
      obtain rfl := Option.some.inj encoded
      rfl
  | cons c text ih =>
      rw [encodeUtf8] at encoded
      obtain ⟨rest, written, encoded⟩ := Option.bind_eq_some_iff.mp encoded
      have read := ih written
      dsimp only at encoded
      split_ifs at encoded with one two surrogate three
      · obtain rfl := Option.some.inj encoded
        exact decodeUtf8_one read one
      · obtain rfl := Option.some.inj encoded
        exact decodeUtf8_two read (not_lt.mp one) two
      · obtain rfl := Option.some.inj encoded
        exact decodeUtf8_three read (not_lt.mp two) three surrogate
      · obtain rfl := Option.some.inj encoded
        exact decodeUtf8_four read (not_lt.mp three)

/-- Texts with the same bytes are the same. -/
theorem encodeUtf8_injective {text other : Str} {data : Bytes} (first : encodeUtf8 text = some data)
    (second : encodeUtf8 other = some data) : text = other := by
  have read := decodeUtf8_encodeUtf8 first
  rw [decodeUtf8_encodeUtf8 second] at read
  exact (Option.some.inj read).symm

end GeniusNew
