import Mathlib.Data.Fintype.Card
import Mathlib.Data.UInt

/-!
# Mixing and packing machine words

The two steps a word mixer is made of lose nothing: `x ^ (x >> s)`, since two words
with one image differ by a word that equals itself shifted, and multiplication by a
unit. Packing by shift and or loses nothing either while the fields do not overlap:
it is then `a * 2^k + b` on the values. A chain of such rounds ends differently when one
of the words that went in is different (`foldl_ne`).
-/

namespace Words

theorem xor_swap {w : Nat} {a b c d : BitVec w} (h : a ^^^ b = c ^^^ d) : a ^^^ c = b ^^^ d := by
  calc a ^^^ c = (a ^^^ b) ^^^ (b ^^^ c) := by
        rw [BitVec.xor_assoc, ← BitVec.xor_assoc b, BitVec.xor_self, BitVec.zero_xor]
    _ = b ^^^ d := by
        rw [h, BitVec.xor_comm, BitVec.xor_assoc, ← BitVec.xor_assoc c, BitVec.xor_self,
          BitVec.zero_xor]

theorem eq_zero_of_eq_ushiftRight {w s : Nat} (hs : 0 < s) {d : BitVec w} (h : d = d >>> s) :
    d = 0 := by
  have hnat : d.toNat = d.toNat / 2 ^ s := by
    conv_lhs => rw [h, BitVec.toNat_ushiftRight, Nat.shiftRight_eq_div_pow]
  have hzero : d.toNat = 0 := by
    by_contra hne
    have := Nat.div_lt_self (Nat.pos_of_ne_zero hne) (Nat.one_lt_two_pow hs.ne')
    omega
  exact BitVec.eq_of_toNat_eq hzero

theorem xorShift_injective {w s : Nat} (hs : 0 < s) :
    Function.Injective fun x : BitVec w => x ^^^ (x >>> s) := by
  intro x y hxy
  have hdiff : x ^^^ y = (x ^^^ y) >>> s := by
    rw [BitVec.ushiftRight_xor_distrib]
    exact xor_swap hxy
  exact BitVec.xor_eq_zero_iff.mp (eq_zero_of_eq_ushiftRight hs hdiff)

theorem xorShift64_injective {s : UInt64} (hs : 0 < s.toNat % 64) :
    Function.Injective fun x : UInt64 => x ^^^ (x >>> s) := by
  intro x y hxy
  refine UInt64.toBitVec_inj.mp (xorShift_injective hs ?_)
  have hword := congrArg UInt64.toBitVec hxy
  dsimp only at hword ⊢
  rw [UInt64.toBitVec_xor, UInt64.toBitVec_xor, UInt64.toBitVec_shiftRight,
    UInt64.toBitVec_shiftRight] at hword
  exact hword

theorem mul64_injective {c d : UInt64} (h : c * d = 1) :
    Function.Injective fun x : UInt64 => x * c := by
  intro x y hxy
  have hback : x * c * d = y * c * d := congrArg (· * d) hxy
  rw [UInt64.mul_assoc, UInt64.mul_assoc, h, UInt64.mul_one, UInt64.mul_one] at hback
  exact hback

instance finiteUInt64 : Finite UInt64 :=
  Finite.of_injective (fun x : UInt64 => x.toBitVec.toFin) fun _ _ h =>
    UInt64.toBitVec_inj.mp (BitVec.eq_of_toFin_eq h)

/-- Two fields side by side in a word. -/
theorem toNat_pack {a b s : UInt64} (hs : s.toNat < 64) (ha : a.toNat < 2 ^ (64 - s.toNat))
    (hb : b.toNat < 2 ^ s.toNat) :
    ((a <<< s) ||| b).toNat = a.toNat * 2 ^ s.toNat + b.toNat := by
  have hfit : a.toNat * 2 ^ s.toNat < 2 ^ 64 := by
    calc a.toNat * 2 ^ s.toNat < 2 ^ (64 - s.toNat) * 2 ^ s.toNat :=
          Nat.mul_lt_mul_of_pos_right ha (Nat.two_pow_pos _)
      _ = 2 ^ 64 := by rw [← Nat.pow_add, Nat.sub_add_cancel hs.le]
  rw [UInt64.toNat_or, UInt64.toNat_shiftLeft, Nat.mod_eq_of_lt hs]
  rw [Nat.shiftLeft_eq, Nat.mod_eq_of_lt hfit, ← Nat.shiftLeft_eq,
    ← Nat.shiftLeft_add_eq_or_of_lt hb]

/-! ## A chain of rounds -/

section Chain

variable {α β : Type*} {round : β → α → β} (hround : ∀ a, Function.Injective (round · a))

include hround

theorem foldl_injective (l : List α) : Function.Injective fun h => l.foldl round h := by
  induction l with
  | nil => exact Function.injective_id
  | cons a l ih => exact ih.comp (hround a)

/-- Rounds that lose nothing keep the difference that one input makes. -/
theorem foldl_ne {l l' : List α} (hlen : l.length = l'.length) {i : Nat} {a a' : α}
    (ha : l[i]? = some a) (ha' : l'[i]? = some a') (hne : ∀ h, round h a ≠ round h a')
    (heq : ∀ j b b', j ≠ i → l[j]? = some b → l'[j]? = some b' → b = b') (h : β) :
    l.foldl round h ≠ l'.foldl round h := by
  induction l generalizing l' i h with
  | nil => exact absurd ha (by simp)
  | cons b l ih =>
    cases l' with
    | nil => exact absurd hlen (by simp)
    | cons b' l' =>
      have hrest : l.length = l'.length := Nat.succ.inj hlen
      rw [List.foldl_cons, List.foldl_cons]
      cases i with
      | zero =>
        -- the rest is the same, and keeps the difference
        have hsame : l = l' := by
          refine List.ext_getElem hrest fun j hj hj' => ?_
          exact heq (j + 1) _ _ (Nat.succ_ne_zero j) (List.getElem?_eq_getElem hj)
            (List.getElem?_eq_getElem hj')
        obtain rfl := Option.some.inj ha
        obtain rfl := Option.some.inj ha'
        rw [← hsame]
        exact fun hend => hne h (foldl_injective hround l hend)
      | succ i =>
        obtain rfl : b = b' := heq 0 b b' (Nat.succ_ne_zero i).symm rfl rfl
        refine ih hrest ha ha' (fun j c c' hj => ?_) _
        exact heq (j + 1) c c' fun h => hj (Nat.succ.inj h)

end Chain

end Words
