import FabricSim.Core.Memory
import FabricSim.Core.Rerun
import FabricSim.Routing.EcmpHash

/-!
# The digest of a run

`resultDigest` mixes five words of every flow into one. A row is the result of a flow in
the types of the code. The packed words lose nothing of them (`ResultRow.packed_inj`,
`ResultRow.flags_inj`) and a round of the mixer loses nothing of what came before, so one
changed word changes the digest.
-/

namespace FabricSim

/-- The words of a flow that are mixed in. -/
inductive ResultWord where
  | start
  | finish
  | bytes
  | packets
  | flags
  deriving DecidableEq

namespace ResultRow

def packed (r : ResultRow) : UInt64 :=
  (r.packetsDelivered.toUInt64 <<< 32) ||| r.packetsDropped.toUInt64

def flags (r : ResultRow) : UInt64 :=
  (r.packetsRetransmitted.toUInt64 <<< 2) ||| (r.failed.toUInt64 <<< 1) ||| r.complete.toUInt64

/-- The five rounds of one flow. -/
def mixed (h : UInt64) (r : ResultRow) : UInt64 :=
  let h := mix64 (h ^^^ r.startNs)
  let h := mix64 (h ^^^ r.finishNs)
  let h := mix64 (h ^^^ r.deliveredBytes)
  let h := mix64 (h ^^^ r.packed)
  mix64 (h ^^^ r.flags)

/-- Two results agree in one of the words. -/
def Agree (r r' : ResultRow) : ResultWord → Prop
  | .start => r.startNs = r'.startNs
  | .finish => r.finishNs = r'.finishNs
  | .bytes => r.deliveredBytes = r'.deliveredBytes
  | .packets => r.packetsDelivered = r'.packetsDelivered ∧ r.packetsDropped = r'.packetsDropped
  | .flags => r.packetsRetransmitted = r'.packetsRetransmitted ∧ r.failed = r'.failed ∧
      r.complete = r'.complete

end ResultRow

/-- The digest goes over the rows. -/
theorem resultDigest_eq (results : List FlowResult) : resultDigest results =
    (results.map FlowResult.row).foldl ResultRow.mixed 0xCBF29CE484222325 := by
  rw [List.foldl_map]
  rfl

/-! ## Packing -/

theorem toNat_toUInt64_lt (n : UInt32) : n.toUInt64.toNat < 2 ^ 32 := by
  rw [UInt32.toNat_toUInt64]
  exact n.toNat_lt

theorem toNat_bool_lt (b : Bool) : b.toUInt64.toNat < 2 := by
  cases b
  · decide
  · decide

theorem toUInt64_bool_inj {b b' : Bool} (h : b.toUInt64.toNat = b'.toUInt64.toNat) : b = b' := by
  revert h
  cases b <;> cases b' <;> decide

namespace ResultRow

theorem toNat_packed (r : ResultRow) :
    r.packed.toNat = r.packetsDelivered.toNat * 2 ^ 32 + r.packetsDropped.toNat := by
  have hpack := Words.toNat_pack (s := 32) (by decide) (toNat_toUInt64_lt r.packetsDelivered)
    (toNat_toUInt64_lt r.packetsDropped)
  rw [UInt32.toNat_toUInt64, UInt32.toNat_toUInt64] at hpack
  exact hpack

theorem toNat_flags (r : ResultRow) : r.flags.toNat =
    r.packetsRetransmitted.toNat * 4 + (r.failed.toUInt64.toNat * 2 + r.complete.toUInt64.toNat) := by
  have hfailed := toNat_bool_lt r.failed
  have hcomplete := toNat_bool_lt r.complete
  have hretx := toNat_toUInt64_lt r.packetsRetransmitted
  have hlow := Words.toNat_pack (a := r.failed.toUInt64) (b := r.complete.toUInt64) (s := 1)
    (by decide) (by show _ < 2 ^ 63; omega) hcomplete
  have hpack := Words.toNat_pack (a := r.packetsRetransmitted.toUInt64)
    (b := (r.failed.toUInt64 <<< 1) ||| r.complete.toUInt64) (s := 2) (by decide)
    (by show _ < 2 ^ 62; omega) (by rw [hlow]; show _ < 2 ^ 2; show _ * 2 ^ 1 + _ < _; omega)
  unfold flags
  rw [UInt64.or_assoc, hpack, hlow, UInt32.toNat_toUInt64]
  rfl

theorem packed_inj {r r' : ResultRow} (h : r.packed = r'.packed) : r.Agree r' .packets := by
  have hval := congrArg UInt64.toNat h
  rw [toNat_packed, toNat_packed] at hval
  have hlow := r.packetsDropped.toNat_lt
  have hlow' := r'.packetsDropped.toNat_lt
  exact ⟨UInt32.toNat_inj.mp (by omega), UInt32.toNat_inj.mp (by omega)⟩

theorem flags_inj {r r' : ResultRow} (h : r.flags = r'.flags) : r.Agree r' .flags := by
  have hval := congrArg UInt64.toNat h
  rw [toNat_flags, toNat_flags] at hval
  have hfailed := toNat_bool_lt r.failed
  have hfailed' := toNat_bool_lt r'.failed
  have hcomplete := toNat_bool_lt r.complete
  have hcomplete' := toNat_bool_lt r'.complete
  exact ⟨UInt32.toNat_inj.mp (by omega), toUInt64_bool_inj (by omega),
    toUInt64_bool_inj (by omega)⟩

/-! ## Mixing -/

/-- The word of a row, as it is mixed in. -/
def word (r : ResultRow) : ResultWord → UInt64
  | .start => r.startNs
  | .finish => r.finishNs
  | .bytes => r.deliveredBytes
  | .packets => r.packed
  | .flags => r.flags

/-- The order in which the words of a row are mixed in. -/
def order : List ResultWord := [.start, .finish, .bytes, .packets, .flags]

theorem mixed_eq (h : UInt64) (r : ResultRow) :
    mixed h r = (order.map r.word).foldl (fun h w => mix64 (h ^^^ w)) h := rfl

theorem round_injective (w : UInt64) : Function.Injective fun h => mix64 (h ^^^ w) :=
  fun _ _ h => (UInt64.xor_left_inj w).mp (mix64_injective h)

theorem mixed_injective (r : ResultRow) : Function.Injective (mixed · r) :=
  Words.foldl_injective round_injective (order.map r.word)

/-- The words of two rows are the same if and only if the rows agree there. -/
theorem word_eq_iff (r r' : ResultRow) (k : ResultWord) : r.word k = r'.word k ↔ r.Agree r' k := by
  cases k with
  | start => exact Iff.rfl
  | finish => exact Iff.rfl
  | bytes => exact Iff.rfl
  | packets =>
    refine ⟨packed_inj, fun h => ?_⟩
    show r.packed = r'.packed
    unfold packed
    rw [h.1, h.2]
  | flags =>
    refine ⟨flags_inj, fun h => ?_⟩
    show r.flags = r'.flags
    unfold flags
    rw [h.1, h.2.1, h.2.2]

theorem order_nodup : order.Nodup := by decide

theorem mem_order (k : ResultWord) : k ∈ order := by
  cases k <;> decide

/-- One changed word changes what a flow makes of the digest so far. -/
theorem mixed_ne {r r' : ResultRow} {k : ResultWord} (hne : ¬ r.Agree r' k)
    (heq : ∀ v, v ≠ k → r.Agree r' v) (h : UInt64) : mixed h r ≠ mixed h r' := by
  obtain ⟨i, hi⟩ := List.getElem?_of_mem (mem_order k)
  have hword : ∀ q : ResultRow, (order.map q.word)[i]? = some (q.word k) := by
    intro q
    rw [List.getElem?_map, hi]
    rfl
  rw [mixed_eq, mixed_eq]
  refine Words.foldl_ne round_injective (by simp) (hword r) (hword r') ?_ ?_ h
  · intro h hsame
    exact hne ((word_eq_iff r r' k).mp ((UInt64.xor_right_inj h).mp (mix64_injective hsame)))
  · intro j b b' hj hb hb'
    rw [List.getElem?_map] at hb hb'
    obtain ⟨v, hv, rfl⟩ := Option.map_eq_some_iff.mp hb
    rw [hv] at hb'
    obtain rfl := Option.some.inj hb'
    refine (word_eq_iff r r' v).mpr (heq v fun hvk => hj ?_)
    rw [hvk] at hv
    have hlt := (List.getElem?_eq_some_iff.mp hv).1
    exact (List.getElem?_inj hlt order_nodup).mp (hv.trans hi.symm)

theorem eq_of_agree {r r' : ResultRow} (h : ∀ k, r.Agree r' k) : r = r' :=
  ResultRow.ext (h .start) (h .finish) (h .bytes) (h .packets).1 (h .packets).2 (h .flags).1
    (h .flags).2.2 (h .flags).2.1

end ResultRow

/-- Results that differ in one word of one flow have different digests, wherever the flow
stands and however many follow. -/
theorem digest_detects_change {results results' : List FlowResult}
    (hlen : results.length = results'.length) {i : Nat} {k : ResultWord} {r r' : FlowResult}
    (hr : results[i]? = some r) (hr' : results'[i]? = some r') (hne : ¬ r.row.Agree r'.row k)
    (heq : ∀ j v q q', results[j]? = some q → results'[j]? = some q' → (j, v) ≠ (i, k) →
      q.row.Agree q'.row v) :
    resultDigest results ≠ resultDigest results' := by
  have hrow : ∀ {l : List FlowResult} {q : FlowResult}, l[i]? = some q →
      (l.map FlowResult.row)[i]? = some q.row := by
    intro l q hq
    rw [List.getElem?_map, hq]
    rfl
  rw [resultDigest_eq, resultDigest_eq]
  refine Words.foldl_ne ResultRow.mixed_injective (by simpa using hlen) (hrow hr) (hrow hr') ?_ ?_ _
  · refine ResultRow.mixed_ne hne fun v hv => heq i v r r' hr hr' fun h => ?_
    exact hv (Prod.mk.inj h).2
  · intro j b b' hj hb hb'
    rw [List.getElem?_map] at hb hb'
    obtain ⟨q, hq, rfl⟩ := Option.map_eq_some_iff.mp hb
    obtain ⟨q', hq', rfl⟩ := Option.map_eq_some_iff.mp hb'
    refine ResultRow.eq_of_agree fun v => heq j v q q' hq hq' fun h => ?_
    exact hj (Prod.mk.inj h).1

/-- Two flows, the first of which starts at another time. -/
theorem digest_detects_change_start : resultDigest [{ startNs := 1 }, {}] ≠ resultDigest [{}, {}] := by
  refine digest_detects_change (i := 0) (k := .start) rfl rfl rfl ?_ ?_
  · show ¬ UInt64.ofNat 1 = UInt64.ofNat 0
    decide
  intro j v q q' hq hq' hne
  match j with
  | 0 =>
    obtain rfl := Option.some.inj hq
    obtain rfl := Option.some.inj hq'
    cases v with
    | start => exact absurd rfl hne
    | finish => rfl
    | bytes => rfl
    | packets => exact ⟨rfl, rfl⟩
    | flags => exact ⟨rfl, rfl, rfl⟩
  | 1 =>
    obtain rfl := Option.some.inj hq
    obtain rfl := Option.some.inj hq'
    exact (ResultRow.word_eq_iff _ _ v).mp rfl
  | j + 2 => exact absurd hq (by simp)

end FabricSim
