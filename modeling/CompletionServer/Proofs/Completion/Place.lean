import CompletionServer.Completion.Request

/-!
# Places in range

A place is counted from the base of a backend, which may be a float. The sum is there if the line
and the column are in the range of floats, and any number below `2 ^ 1023` is.
-/

namespace CompletionServer

namespace Decimal

theorem log2_lt_of_lt_twoPow {num n : Nat} (hpos : num ≠ 0) (h : num < twoPow n) :
    num.log2 < n := (Nat.log2_lt hpos).mpr h

/-- The exponent that rounding starts with is not beyond what doubles have. -/
theorem gridExponent_le {num : Nat} (hpos : num ≠ 0) (h : num < twoPow 1023) :
    gridExponent num 1 ≤ 969 := by
  have hlog : num.log2 < 1023 := log2_lt_of_lt_twoPow hpos h
  have hone : Nat.log2 1 = 0 := by decide
  rw [gridExponent, hone]
  omega

/-- There are bits for a mantissa and an exponent in range. -/
theorem exists_pack_eq_some {b : Nat × Int} (h : b.2 ≤ 971) :
    ∃ bits : UInt64, (if 971 < b.2 then none
      else if b.1 < twoPow 52 then some b.1.toUInt64
      else some (((b.2 + 1075).toNat * twoPow 52 + (b.1 - twoPow 52)).toUInt64)) = some bits := by
  rw [if_neg (Int.not_lt.mpr h)]
  split
  · exact ⟨_, rfl⟩
  · exact ⟨_, rfl⟩

theorem exists_bitsOfRatio_eq_some {num : Nat} (h : num < twoPow 1023) :
    ∃ bits, bitsOfRatio num 1 = some bits := by
  unfold bitsOfRatio
  split
  · exact ⟨0, rfl⟩
  · next hzero =>
    have hpos : num ≠ 0 := by simpa using hzero
    have hgrid := gridExponent_le hpos h
    -- Rounding may move the exponent by one, and carrying by one more.
    dsimp only
    split
    · refine exists_pack_eq_some ?_
      split
      · dsimp only
        omega
      · dsimp only
        omega
    · refine exists_pack_eq_some ?_
      split
      · dsimp only
        omega
      · dsimp only
        omega

theorem exists_floatOfInt_eq_some {n : Int} (h : n.natAbs < Decimal.twoPow 1023) :
    ∃ x, floatOfInt n = some x := by
  obtain ⟨bits, hbits⟩ := exists_bitsOfRatio_eq_some h
  rw [floatOfInt, floatOfRatio, hbits]
  exact ⟨_, rfl⟩

end Decimal

theorem Numeral.exists_add?_eq_some {n : Int} (h : n.natAbs < Decimal.twoPow 1023)
    (base : Numeral) :
    ∃ a, add? (.int n) base = some a := by
  cases base with
  | bool b => exact ⟨_, rfl⟩
  | int m => exact ⟨_, rfl⟩
  | float x =>
    obtain ⟨y, hy⟩ := Decimal.exists_floatOfInt_eq_some h
    have hy' : toFloat? (.int n) = some y := hy
    refine ⟨.float (y + x), ?_⟩
    unfold add?
    rw [hy']
    rfl

/-- There is a request from any base for a query whose place is in range. -/
theorem Completion.Request.exists_ofQuery?_eq_some {q : Query} {line column : Int}
    (hline : q.line = .int line) (hcolumn : q.column = .int column)
    (hlines : line.natAbs < Decimal.twoPow 1023) (hcolumns : column.natAbs < Decimal.twoPow 1023)
    (base : Numeral) :
    ∃ r, Request.ofQuery? base q = some r := by
  obtain ⟨l, hl⟩ := Numeral.exists_add?_eq_some hlines base
  obtain ⟨c, hc⟩ := Numeral.exists_add?_eq_some hcolumns base
  rw [Request.ofQuery?, hline, hcolumn, hl, hc]
  exact ⟨_, rfl⟩

end CompletionServer
