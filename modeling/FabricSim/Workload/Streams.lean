import FabricSim.Lib.Drawing
import FabricSim.Workload.AllReduce
import FabricSim.Workload.Mt19937
import FabricSim.Workload.Rng

/-!
# The workloads on their streams

The generators as they draw: the shuffle from one stream, the ports from another, the
starting times from a third, each seeded by its name. `Draws.ofStreams` makes the draws of
each stream alone. That the generator of the permutation draws from two of them in turn, and
stops at a host that is its own destination, makes no difference to what it returns
(`makePermutationOn_eq`).

A stream is read as far as it has to be, and a word of 63 bits or fewer can be thrown away;
how many of the others are needed is what `Rich` counts.
-/

namespace FabricSim

def kStreamPermutation : UInt64 := 1
def kStreamPorts : UInt64 := 2
def kStreamStartTimes : UInt64 := 3

/-! ## The generators -/

section Generators

variable (engine : UInt64 → Nat → UInt64) (fuel : Nat)

/-- The position that is exchanged with position `i`. -/
def swapDraw (i : Nat) (rng : RandomStream) : Option (Nat × RandomStream) :=
  (rng.below fuel (UInt32.ofNat i)).map fun r => (r.1.toNat, r.2)

def portDraw (rng : RandomStream) : Option (Nat × RandomStream) :=
  (rng.below fuel 63488).map fun r => (r.1.toNat, r.2)

/-- No jitter draws nothing. -/
def startDraw (maxStartJitterNs : Nat) (rng : RandomStream) : Option (Nat × RandomStream) :=
  if maxStartJitterNs = 0 then some (0, rng)
  else (rng.below64 fuel (UInt64.ofNat (u64 (maxStartJitterNs + 1)))).map fun r => (r.1.toNat, r.2)

/-- The shuffle, from position `i` down. -/
def shuffle : Nat → RandomStream → (Nat → Nat) → Option ((Nat → Nat) × RandomStream)
  | 0, permRng, dst => some (dst, permRng)
  | i + 1, permRng, dst =>
    (swapDraw fuel (i + 1) permRng).bind fun j => shuffle i j.2 (exchange dst (i + 1) j.1)

/-- The port of a flow, from what was drawn for it. -/
def sourcePort (drawn : Nat) : UInt16 := UInt16.ofNat (u32 (1024 + drawn))

/-- One host's flow, from what was drawn for it. -/
def drawnFlow (f : Fabric) (params : PermutationParams) (dst : Nat → Nat) (h port start : Nat) :
    FlowSpec where
  src := f.hostAt h
  dst := f.hostAt (dst h)
  sizeBytes := params.flowBytes
  mtuBytes := params.mtuBytes
  loadPermille := params.loadPermille
  windowPkts := params.windowPkts
  srcPort := sourcePort port
  dstPort := 5001
  startNs := start

/-- The loop over the hosts. -/
def flowLoop (f : Fabric) (params : PermutationParams) (dst : Nat → Nat) :
    List Nat → RandomStream → RandomStream → Option (List FlowSpec)
  | [], _, _ => some []
  | h :: hosts, portRng, startRng =>
    if dst h ≠ h then
      (portDraw fuel portRng).bind fun port =>
        (startDraw fuel params.maxStartJitterNs startRng).bind fun start =>
          (flowLoop f params dst hosts port.2 start.2).map fun flows =>
            drawnFlow f params dst h port.1 start.1 :: flows
    else none

/-- `make_permutation`; `none` when an assertion fails or the fuel of a draw is out. -/
def makePermutationOn (f : Fabric) (params : PermutationParams) : Option (List FlowSpec) :=
  let n := u32 f.hostCount
  if 2 ≤ n ∧ 0 < params.loadPermille ∧ params.loadPermille ≤ 1000 then
    (shuffle fuel (n - 1) (RandomStream.create engine params.seed kStreamPermutation) id).bind
      fun r => flowLoop fuel f params r.1 (List.range n)
        (RandomStream.create engine params.seed kStreamPorts)
        (RandomStream.create engine params.seed kStreamStartTimes)
  else none

/-- `make_ring_all_reduce`: the ports are drawn before the flows are made. -/
def makeRingAllReduceOn (f : Fabric) (params : AllReduceParams) : Option AllReduce :=
  let gpus := if params.gpuCount = 0 then u32 f.hostCount else params.gpuCount
  (Drawing.each (fun _ => portDraw fuel) (List.range gpus)
    (RandomStream.create engine params.seed kStreamPorts)).bind fun ports =>
      makeRingAllReduce f params { port := fun r => ports.1.getD r 0 }

/-- The positions of the shuffle, in the order it visits them. -/
def positions : Nat → List Nat
  | 0 => []
  | i + 1 => (i + 1) :: positions i

/-- What each of the three streams gives alone. -/
def Draws.ofStreams (seed : UInt64) (n maxStartJitterNs : Nat) : Option Draws :=
  (Drawing.each (swapDraw fuel) (positions (n - 1))
    (RandomStream.create engine seed kStreamPermutation)).bind fun swaps =>
  (Drawing.each (fun _ => portDraw fuel) (List.range n)
    (RandomStream.create engine seed kStreamPorts)).bind fun ports =>
  (Drawing.each (fun _ => startDraw fuel maxStartJitterNs) (List.range n)
    (RandomStream.create engine seed kStreamStartTimes)).map fun starts =>
      { swap := fun i => swaps.1.getD (n - 1 - i) 0
        port := fun h => ports.1.getD h 0
        start := fun _ h => starts.1.getD h 0 }

end Generators

variable {engine : UInt64 → Nat → UInt64} {fuel : Nat}

/-! ## The shuffle -/

theorem length_positions (m : Nat) : (positions m).length = m := by
  induction m with
  | zero => rfl
  | succ m ih => exact congrArg Nat.succ ih

theorem sattolo_congr {swap swap' : Nat → Nat} {m : Nat}
    (h : ∀ i, 0 < i → i ≤ m → swap i = swap' i) (dst : Nat → Nat) :
    sattolo swap m dst = sattolo swap' m dst := by
  induction m generalizing dst with
  | zero => rfl
  | succ m ih =>
    show sattolo swap m (exchange dst (m + 1) (swap (m + 1))) =
      sattolo swap' m (exchange dst (m + 1) (swap' (m + 1)))
    rw [h (m + 1) (Nat.succ_pos m) (Nat.le_refl _)]
    exact ih (fun i hpos hi => h i hpos (by omega)) _

/-- The shuffle draws for its positions, and exchanges what was drawn. -/
theorem shuffle_eq (m : Nat) (rng : RandomStream) (dst : Nat → Nat) : shuffle fuel m rng dst =
    (Drawing.each (swapDraw fuel) (positions m) rng).map fun r =>
      (sattolo (fun i => r.1.getD (m - i) 0) m dst, r.2) := by
  induction m generalizing rng dst with
  | zero => rfl
  | succ m ih =>
    show ((swapDraw fuel (m + 1) rng).bind fun j => shuffle fuel m j.2 _) =
      Option.map _ (Drawing.each (swapDraw fuel) ((m + 1) :: positions m) rng)
    rw [Drawing.each_cons]
    cases swapDraw fuel (m + 1) rng with
    | none => rfl
    | some j =>
      simp only [Option.bind_some]
      rw [ih]
      cases Drawing.each (swapDraw fuel) (positions m) j.2 with
      | none => rfl
      | some r =>
        simp only [Option.map_some, Option.some_inj, Prod.mk.injEq, and_true]
        show _ = sattolo _ m (exchange dst (m + 1) ((j.1 :: r.1).getD (m + 1 - (m + 1)) 0))
        rw [Nat.sub_self]
        refine sattolo_congr (fun i hpos hi => ?_) _
        rw [Nat.succ_sub hi, List.getD_cons_succ]

/-! ## The loop over the hosts -/

/-- What is drawn for one host. -/
def hostDraw (fuel maxStartJitterNs : Nat) : Nat → RandomStream × RandomStream →
    Option ((Nat × Nat) × (RandomStream × RandomStream)) :=
  Drawing.both (fun _ => portDraw fuel) fun _ => startDraw fuel maxStartJitterNs

theorem hostDraw_eq (fuel maxStartJitterNs h : Nat) (portRng startRng : RandomStream) :
    hostDraw fuel maxStartJitterNs h (portRng, startRng) =
      (portDraw fuel portRng).bind fun port => (startDraw fuel maxStartJitterNs startRng).map
        fun start => ((port.1, start.1), (port.2, start.2)) := rfl

/-- The loop draws for every host in turn, and no host may be its own destination. -/
theorem flowLoop_eq (f : Fabric) (params : PermutationParams) (dst : Nat → Nat)
    (hosts : List Nat) (portRng startRng : RandomStream) :
    flowLoop fuel f params dst hosts portRng startRng =
      if ∀ h ∈ hosts, dst h ≠ h then
        (Drawing.each (hostDraw fuel params.maxStartJitterNs) hosts (portRng, startRng)).map
          fun r => List.zipWith (fun h d => drawnFlow f params dst h d.1 d.2) hosts r.1
      else none := by
  induction hosts generalizing portRng startRng with
  | nil => rfl
  | cons h hosts ih =>
    have hcons : (∀ x ∈ h :: hosts, dst x ≠ x) ↔ dst h ≠ h ∧ ∀ x ∈ hosts, dst x ≠ x :=
      List.forall_mem_cons
    unfold flowLoop
    by_cases hself : dst h ≠ h
    · rw [if_pos hself, Drawing.each_cons, hostDraw_eq]
      cases portDraw fuel portRng with
      | none => simp only [Option.bind_none, Option.map_none, ite_self]
      | some port =>
        simp only [Option.bind_some]
        cases startDraw fuel params.maxStartJitterNs startRng with
        | none => simp only [Option.bind_none, Option.map_none, ite_self]
        | some start =>
          simp only [Option.bind_some, Option.map_some]
          rw [ih]
          by_cases hrest : ∀ x ∈ hosts, dst x ≠ x
          · rw [if_pos hrest, if_pos (hcons.mpr ⟨hself, hrest⟩), Option.map_map, Option.map_map]
            rfl
          · rw [if_neg hrest, if_neg fun hall => hrest (hcons.mp hall).2]
            rfl
    · rw [if_neg hself, if_neg fun hall => hself (hcons.mp hall).1]

/-! ## What the draws return -/

theorem swapDraw_lt {i j : Nat} {rng rng' : RandomStream} (hpos : 0 < i) (hfit : i < 2 ^ 32)
    (h : swapDraw fuel i rng = some (j, rng')) : j < i := by
  obtain ⟨r, hr, heq⟩ := Option.map_eq_some_iff.mp h
  obtain ⟨rfl, -⟩ := Prod.mk.inj heq
  have hi : (UInt32.ofNat i).toNat = i := UInt32.toNat_ofNat_of_lt' hfit
  have hlt := RandomStream.below_lt (UInt32.lt_iff_toNat_lt.mpr (by rw [hi]; exact hpos)) hr
  rw [UInt32.lt_iff_toNat_lt, hi] at hlt
  exact hlt

theorem portDraw_lt {port : Nat} {rng rng' : RandomStream}
    (h : portDraw fuel rng = some (port, rng')) : port < 63488 := by
  obtain ⟨r, hr, heq⟩ := Option.map_eq_some_iff.mp h
  obtain ⟨rfl, -⟩ := Prod.mk.inj heq
  exact UInt32.lt_iff_toNat_lt.mp (RandomStream.below_lt (by decide) hr)

/-- Also where the one more than the jitter has wrapped to 0. -/
theorem startDraw_le {maxStartJitterNs start : Nat} {rng rng' : RandomStream}
    (h : startDraw fuel maxStartJitterNs rng = some (start, rng')) : start ≤ maxStartJitterNs := by
  unfold startDraw at h
  split at h
  · obtain ⟨rfl, -⟩ := Prod.mk.inj (Option.some.inj h)
    exact Nat.zero_le _
  · obtain ⟨r, hr, heq⟩ := Option.map_eq_some_iff.mp h
    obtain ⟨rfl, -⟩ := Prod.mk.inj heq
    have hbound : (UInt64.ofNat (u64 (maxStartJitterNs + 1))).toNat ≤ maxStartJitterNs + 1 := by
      rw [UInt64.toNat_ofNat']
      exact (Nat.mod_le _ _).trans (u64_le _)
    by_cases htwo : 2 ≤ UInt64.ofNat (u64 (maxStartJitterNs + 1))
    · obtain ⟨m, -, -, hout, -⟩ := (RandomStream.below64_eq_some_iff htwo).mp hr
      have hlt := UInt64.lt_iff_toNat_lt.mp (RandomStream.outcome_lt htwo hout)
      omega
    · have hle : UInt64.ofNat (u64 (maxStartJitterNs + 1)) ≤ 1 := by
        rw [UInt64.le_iff_toNat_le] at htwo ⊢
        exact Nat.lt_succ_iff.mp (not_le.mp htwo)
      unfold RandomStream.below64 at hr
      rw [if_pos hle] at hr
      obtain rfl := Option.some.inj hr
      exact Nat.zero_le _

/-- What is drawn for every host is in the list of draws. -/
theorem getD_forall {α : Type*} {P : α → Prop} {is : List Nat} {vs : List α} {d : α}
    (h : List.Forall₂ (fun _ v => P v) is vs) {k : Nat} (hk : k < is.length) : P (vs.getD k d) := by
  rw [List.getD_eq_getElem _ _ (h.length_eq ▸ hk)]
  exact List.forall₂_iff_get.mp h |>.2 k hk (h.length_eq ▸ hk)

/-- The streams of a run, one for each kind of draw. -/
theorem ofStreams_eq_some {seed : UInt64} {n maxStartJitterNs : Nat} {draws : Draws} :
    Draws.ofStreams engine fuel seed n maxStartJitterNs = some draws ↔
      ∃ swaps ports starts : List Nat, ∃ s p t : RandomStream,
        Drawing.each (swapDraw fuel) (positions (n - 1))
          (RandomStream.create engine seed kStreamPermutation) = some (swaps, s) ∧
        Drawing.each (fun _ => portDraw fuel) (List.range n)
          (RandomStream.create engine seed kStreamPorts) = some (ports, p) ∧
        Drawing.each (fun _ => startDraw fuel maxStartJitterNs) (List.range n)
          (RandomStream.create engine seed kStreamStartTimes) = some (starts, t) ∧
        draws =
          { swap := fun i => swaps.getD (n - 1 - i) 0
            port := fun h => ports.getD h 0
            start := fun _ h => starts.getD h 0 } := by
  unfold Draws.ofStreams
  rw [Option.bind_eq_some_iff]
  constructor
  · intro ⟨swaps, hswaps, hrest⟩
    obtain ⟨ports, hports, hrest⟩ := Option.bind_eq_some_iff.mp hrest
    obtain ⟨starts, hstarts, heq⟩ := Option.map_eq_some_iff.mp hrest
    exact ⟨swaps.1, ports.1, starts.1, swaps.2, ports.2, starts.2, hswaps, hports, hstarts,
      heq.symm⟩
  · intro ⟨swaps, ports, starts, s, p, t, hswaps, hports, hstarts, heq⟩
    refine ⟨(swaps, s), hswaps, ?_⟩
    rw [hports, Option.bind_some, hstarts, heq]
    rfl

theorem getD_positions {m i : Nat} (hpos : 0 < i) (hi : i ≤ m) :
    (positions m).getD (m - i) 0 = i := by
  induction m with
  | zero => omega
  | succ m ih =>
    rcases Nat.eq_or_lt_of_le hi with rfl | hlt
    · rw [Nat.sub_self]
      rfl
    · have hle : i ≤ m := by omega
      rw [Nat.succ_sub hle]
      exact ih hle

/-- The draws of the streams are draws of the shuffle, of ports and of starting times. -/
theorem ofStreams_valid {seed : UInt64} {n maxStartJitterNs : Nat} {draws : Draws}
    (hfit : n ≤ 2 ^ 32) (h : Draws.ofStreams engine fuel seed n maxStartJitterNs = some draws) :
    draws.Valid n ∧ ∀ host, host < n →
      draws.port host < 63488 ∧ ∀ m, draws.start m host ≤ maxStartJitterNs := by
  obtain ⟨swaps, ports, starts, s, p, t, hswaps, hports, hstarts, rfl⟩ := ofStreams_eq_some.mp h
  refine ⟨fun i hpos hi => ?_, fun host hhost => ⟨?_, fun _ => ?_⟩⟩
  · have hall := Drawing.each_forall₂ (R := fun i j => 0 < i → i < 2 ^ 32 → j < i)
      (fun i rng j rng' h hpos hfit => swapDraw_lt hpos hfit h) hswaps
    have hlen := hall.length_eq
    have hidx : n - 1 - i < (positions (n - 1)).length := by
      rw [length_positions]
      omega
    have hget := (List.forall₂_iff_get.mp hall).2 (n - 1 - i) hidx (hlen ▸ hidx)
    rw [List.get_eq_getElem, List.get_eq_getElem, ← List.getD_eq_getElem _ 0 hidx,
      getD_positions hpos (by omega)] at hget
    show swaps.getD (n - 1 - i) 0 < i
    rw [List.getD_eq_getElem _ _ (hlen ▸ hidx)]
    exact hget hpos (by omega)
  · have hall := Drawing.each_forall₂ (R := fun _ port => port < 63488)
      (fun _ _ _ _ h => portDraw_lt h) hports
    exact getD_forall hall (by rw [List.length_range]; exact hhost)
  · have hall := Drawing.each_forall₂ (R := fun _ start => start ≤ maxStartJitterNs)
      (fun _ _ _ _ h => startDraw_le h) hstarts
    exact getD_forall hall (by rw [List.length_range]; exact hhost)

/-! ## The generators and their draws -/

/-- With the draws of the streams, the flows are those of the model. -/
theorem zipWith_drawnFlow (f : Fabric) (params : PermutationParams) (draws : Draws)
    {ports starts : List Nat} {n : Nat} (hports : ports.length = n) (hstarts : starts.length = n)
    (hport : ∀ h, draws.port h = ports.getD h 0)
    (hstart : ∀ h, draws.start (u64 (params.maxStartJitterNs + 1)) h = starts.getD h 0)
    (hzero : params.maxStartJitterNs = 0 → ∀ h, h < n → starts.getD h 0 = 0) (dst : Nat → Nat) :
    List.zipWith (fun h d => drawnFlow f params dst h d.1 d.2) (List.range n) (ports.zip starts) =
      (List.range n).map (permutationFlow f params draws dst) := by
  have hlen : (ports.zip starts).length = n := by rw [List.length_zip, hports, hstarts, min_self]
  apply List.ext_getElem
  · rw [List.length_zipWith, List.length_map, List.length_range, hlen, min_self]
  · intro h h₁ h₂
    rw [List.length_map, List.length_range] at h₂
    rw [List.getElem_zipWith, List.getElem_map, List.getElem_range, List.getElem_zip]
    have hp : ports.getD h 0 = ports[h] := List.getD_eq_getElem _ _ (hports ▸ h₂)
    have hs : starts.getD h 0 = starts[h] := List.getD_eq_getElem _ _ (hstarts ▸ h₂)
    unfold permutationFlow drawnFlow ephemeralPort sourcePort
    rw [hport, hp]
    congr 1
    split
    · next hj => rw [← hs, hzero hj h h₂]
    · rw [hstart, hs]

/-- The generator of the permutation is the model of it on the draws of the streams. -/
theorem makePermutationOn_eq (engine : UInt64 → Nat → UInt64) (fuel : Nat) (f : Fabric)
    (params : PermutationParams) : makePermutationOn engine fuel f params =
      (Draws.ofStreams engine fuel params.seed (u32 f.hostCount) params.maxStartJitterNs).bind
        (makePermutation f params) := by
  unfold makePermutationOn
  dsimp only
  generalize hn : u32 f.hostCount = n
  by_cases hcheck : 2 ≤ n ∧ 0 < params.loadPermille ∧ params.loadPermille ≤ 1000
  · rw [if_pos hcheck, shuffle_eq]
    unfold Draws.ofStreams
    cases hswaps : Drawing.each (swapDraw fuel) (positions (n - 1))
      (RandomStream.create engine params.seed kStreamPermutation) with
    | none => rfl
    | some swaps =>
      simp only [Option.map_some, Option.bind_some]
      have hboth := Drawing.each_both (fun _ => portDraw fuel)
        (fun _ => startDraw fuel params.maxStartJitterNs) (List.range n)
        (RandomStream.create engine params.seed kStreamPorts)
        (RandomStream.create engine params.seed kStreamStartTimes)
      rw [flowLoop_eq]
      unfold hostDraw
      rw [hboth]
      cases hports : Drawing.each (fun _ => portDraw fuel) (List.range n)
        (RandomStream.create engine params.seed kStreamPorts) with
      | none => simp only [Option.bind_none, Option.map_none, ite_self]
      | some ports =>
        cases hstarts : Drawing.each (fun _ => startDraw fuel params.maxStartJitterNs)
          (List.range n) (RandomStream.create engine params.seed kStreamStartTimes) with
        | none => simp only [Option.bind_some, Option.map_none, Option.bind_none, ite_self]
        | some starts =>
          simp only [Option.bind_some, Option.map_some]
          unfold makePermutation
          dsimp only
          rw [hn]
          have hplen := Drawing.length_each hports
          have hslen := Drawing.length_each hstarts
          rw [List.length_range] at hplen hslen
          have hzero : params.maxStartJitterNs = 0 → ∀ h, h < n → starts.1.getD h 0 = 0 := by
            intro hj h hh
            have hall := Drawing.each_forall₂ (R := fun _ start => start ≤ 0)
              (fun _ _ _ _ h => hj ▸ startDraw_le h) hstarts
            exact Nat.le_zero.mp (getD_forall hall (by rw [List.length_range]; exact hh))
          have hflows := zipWith_drawnFlow f params
            { swap := fun i => swaps.1.getD (n - 1 - i) 0
              port := fun h => ports.1.getD h 0
              start := fun _ h => starts.1.getD h 0 }
            hplen hslen (fun _ => rfl) (fun _ => rfl) hzero
          rw [hflows]
          unfold permutationOf
          by_cases hself : ∀ h ∈ List.range n,
              sattolo (fun i => swaps.1.getD (n - 1 - i) 0) (n - 1) id h ≠ h
          · rw [if_pos hself, if_pos ⟨hcheck, hself⟩]
          · rw [if_neg hself, if_neg fun h => hself h.2]
  · rw [if_neg hcheck]
    symm
    rw [Option.bind_eq_none_iff]
    intro draws _
    unfold makePermutation
    dsimp only
    rw [hn, if_neg fun h => hcheck h.1]

/-! ## How much of a stream is needed -/

namespace RandomStream

/-- Among the words that the fuel allows, `k` have their highest bit set. -/
def Rich (fuel k : Nat) (s : RandomStream) : Prop :=
  ∃ len, len ≤ fuel ∧ k ≤ Nat.count (fun i => 2 ^ 63 ≤ (s.gen (s.drawn + i)).toNat) len

theorem Rich.mono {k k' : Nat} {s : RandomStream} (h : Rich fuel k s) (hle : k' ≤ k) :
    Rich fuel k' s := by
  obtain ⟨len, hlen, hcount⟩ := h
  exact ⟨len, hlen, hle.trans hcount⟩

/-- The cut is in the lower half of the words, whatever the bound. -/
theorem cut_le {n : UInt64} (hn : 2 ≤ n) : 2 ^ 64 % n.toNat ≤ 2 ^ 63 := by
  have htwo := toNat_ge hn
  have hlt := n.toNat_lt
  by_cases hhalf : n.toNat ≤ 2 ^ 63
  · exact (Nat.mod_lt _ (by omega)).le.trans hhalf
  · rw [Nat.mod_eq_sub_mod hlt.le, Nat.mod_eq_of_lt (by omega)]
    omega

theorem outcome_high {n r : UInt64} (hn : 2 ≤ n) (hr : 2 ^ 63 ≤ r.toNat) :
    outcome n r ≠ none := by
  intro hnone
  have hcut := cut_le hn
  have hlow := (outcome_eq_none_iff hn).mp hnone
  omega

/-- A draw takes at most one of the words with the highest bit. -/
theorem Rich.below64 {k : Nat} {s : RandomStream} (h : Rich fuel (k + 1) s) (n : UInt64) :
    ∃ v s', RandomStream.below64 fuel s n = some (v, s') ∧ Rich fuel k s' := by
  by_cases hone : n ≤ 1
  · refine ⟨0, s, ?_, h.mono (Nat.le_succ k)⟩
    unfold RandomStream.below64
    rw [if_pos hone]
  · have hn : 2 ≤ n := by
      rw [UInt64.le_iff_toNat_le] at hone ⊢
      exact not_le.mp hone
    obtain ⟨len, hlen, hcount⟩ := h
    obtain ⟨i, hi, hhigh⟩ : ∃ i, i < len ∧ 2 ^ 63 ≤ (s.gen (s.drawn + i)).toNat := by
      by_contra hnone
      rw [Nat.count_of_forall_not fun i hi hp => hnone ⟨i, hi, hp⟩] at hcount
      exact absurd hcount (Nat.not_succ_le_zero k)
    -- the first word that is not thrown away
    have hex : ∃ m, outcome n (s.gen (s.drawn + m)) ≠ none := ⟨i, outcome_high hn hhigh⟩
    have hm : Nat.find hex < len :=
      lt_of_le_of_lt (Nat.find_min' hex (outcome_high hn hhigh)) hi
    have hbefore : ∀ j, j < Nat.find hex → outcome n (s.gen (s.drawn + j)) = none :=
      fun j hj => not_not.mp (Nat.find_min hex hj)
    obtain ⟨v, hv⟩ := Option.ne_none_iff_exists'.mp (Nat.find_spec hex)
    refine ⟨v, { s with drawn := s.drawn + Nat.find hex + 1 }, ?_, len - (Nat.find hex + 1),
      (Nat.sub_le _ _).trans hlen, ?_⟩
    · exact (below64_eq_some_iff hn).mpr
        ⟨Nat.find hex, hm.trans_le hlen, hbefore, hv, rfl⟩
    · have hsplit := Nat.count_add (fun i => 2 ^ 63 ≤ (s.gen (s.drawn + i)).toNat)
        (Nat.find hex + 1) (len - (Nat.find hex + 1))
      have hnone : Nat.count (fun i => 2 ^ 63 ≤ (s.gen (s.drawn + i)).toNat) (Nat.find hex) = 0 :=
        Nat.count_of_forall_not fun j hj hp => outcome_high hn hp (hbefore j hj)
      have hfirst : Nat.count (fun i => 2 ^ 63 ≤ (s.gen (s.drawn + i)).toNat)
          (Nat.find hex + 1) ≤ 1 := by
        rw [Nat.count_succ, hnone]
        split <;> omega
      have hadd : Nat.find hex + 1 + (len - (Nat.find hex + 1)) = len := by omega
      rw [hadd] at hsplit
      simp only [Nat.add_assoc] at hsplit ⊢
      omega

/-- The words of each of some streams, counted one stream after the other. -/
theorem rich_of_all {k : Nat} {seed : UInt64} {names : List UInt64}
    (h : (names.all fun name => decide
      (k ≤ Nat.count (fun i => 2 ^ 63 ≤ ((create engine seed name).gen i).toNat) fuel)) = true) :
    ∀ name ∈ names, Rich fuel k (create engine seed name) := by
  intro name hname
  have hcount := of_decide_eq_true (List.all_eq_true.mp h name hname)
  refine ⟨fuel, Nat.le_refl fuel, hcount.trans_eq ?_⟩
  congr 1
  funext i
  show _ = (2 ^ 63 ≤ ((create engine seed name).gen (0 + i)).toNat)
  rw [Nat.zero_add]

theorem Rich.below {k : Nat} {s : RandomStream} (h : Rich fuel (k + 1) s) (n : UInt32) :
    ∃ v s', RandomStream.below fuel s n = some (v, s') ∧ Rich fuel k s' := by
  obtain ⟨v, s', hdraw, hrich⟩ := h.below64 n.toUInt64
  refine ⟨v.toUInt32, s', ?_, hrich⟩
  unfold RandomStream.below
  rw [hdraw]
  rfl

end RandomStream

open RandomStream in
/-- A stream with a word for each port. -/
theorem isSome_ports {rng : RandomStream} {n : Nat} (h : Rich fuel n rng) :
    (Drawing.each (fun _ => portDraw fuel) (List.range n) rng).isSome := by
  have hport : ∀ (_ : Nat) (s : RandomStream) (k : Nat), Rich fuel (k + 1) s →
      ∃ v s', portDraw fuel s = some (v, s') ∧ Rich fuel k s' := by
    intro _ s k hk
    obtain ⟨v, s', hdraw, hrich⟩ := hk.below 63488
    refine ⟨v.toNat, s', ?_, hrich⟩
    unfold portDraw
    rw [hdraw]
    rfl
  apply Drawing.isSome_each hport
  rw [List.length_range]
  exact h

open RandomStream in
/-- Three streams with a word for each host are read to the end of the workload. -/
theorem isSome_ofStreams {seed : UInt64} {n : Nat} (maxStartJitterNs : Nat)
    (h : ∀ name ∈ [kStreamPermutation, kStreamPorts, kStreamStartTimes],
      Rich fuel n (RandomStream.create engine seed name)) :
    (Draws.ofStreams engine fuel seed n maxStartJitterNs).isSome := by
  have hswap : ∀ (i : Nat) (s : RandomStream) (k : Nat), Rich fuel (k + 1) s →
      ∃ v s', swapDraw fuel i s = some (v, s') ∧ Rich fuel k s' := by
    intro i s k hk
    obtain ⟨v, s', hdraw, hrich⟩ := hk.below (UInt32.ofNat i)
    refine ⟨v.toNat, s', ?_, hrich⟩
    unfold swapDraw
    rw [hdraw]
    rfl
  have hstart : ∀ (_ : Nat) (s : RandomStream) (k : Nat), Rich fuel (k + 1) s →
      ∃ v s', startDraw fuel maxStartJitterNs s = some (v, s') ∧ Rich fuel k s' := by
    intro _ s k hk
    unfold startDraw
    split
    · exact ⟨0, s, rfl, hk.mono (Nat.le_succ k)⟩
    · obtain ⟨v, s', hdraw, hrich⟩ := hk.below64 (UInt64.ofNat (u64 (maxStartJitterNs + 1)))
      exact ⟨v.toNat, s', by rw [hdraw]; rfl, hrich⟩
  have hswaps : Rich fuel (positions (n - 1)).length
      (RandomStream.create engine seed kStreamPermutation) := by
    rw [length_positions]
    exact (h _ (by simp)).mono (Nat.sub_le n 1)
  have hstarts : Rich fuel (List.range n).length
      (RandomStream.create engine seed kStreamStartTimes) := by
    rw [List.length_range]
    exact h _ (by simp)
  obtain ⟨swaps, hswaps⟩ := Option.isSome_iff_exists.mp (Drawing.isSome_each hswap hswaps)
  obtain ⟨ports, hports⟩ := Option.isSome_iff_exists.mp (isSome_ports (h kStreamPorts (by simp)))
  obtain ⟨starts, hstarts⟩ := Option.isSome_iff_exists.mp (Drawing.isSome_each hstart hstarts)
  exact Option.isSome_iff_exists.mpr ⟨_, ofStreams_eq_some.mpr
    ⟨swaps.1, ports.1, starts.1, swaps.2, ports.2, starts.2, hswaps, hports, hstarts, rfl⟩⟩

/-! ## One stream for each concern -/

theorem range_initial {m n : Nat} (h : m ≤ n) : List.range m <+: List.range n := by
  have htake := List.take_prefix m (List.range n)
  rwa [List.take_range, Nat.min_eq_left h] at htake

/-- The ports of the first hosts or ranks are those of the run, however many more there are. -/
theorem ports_of_le {rng : RandomStream} {m n : Nat} (hle : m ≤ n) {ports : List Nat}
    {p : RandomStream}
    (h : Drawing.each (fun _ => portDraw fuel) (List.range n) rng = some (ports, p)) :
    ∃ first p', Drawing.each (fun _ => portDraw fuel) (List.range m) rng = some (first, p') ∧
      ∀ r, r < m → first.getD r 0 = ports.getD r 0 := by
  obtain ⟨first, p', hfirst, hpre⟩ := Drawing.each_prefix (range_initial hle) h
  refine ⟨first, p', hfirst, fun r hr => ?_⟩
  have hlen := Drawing.length_each hfirst
  rw [List.length_range] at hlen
  have hin : r < first.length := hlen ▸ hr
  rw [List.getD_eq_getElem _ _ hin, List.getD_eq_getElem _ _ (hin.trans_le hpre.length_le)]
  exact hpre.getElem hin

/-- The ring uses the ports of its ranks and no other draw. -/
theorem makeRingAllReduce_congr {f : Fabric} {params : AllReduceParams} {draws draws' : Draws}
    (h : ∀ r, r < (if params.gpuCount = 0 then u32 f.hostCount else params.gpuCount) →
      draws.port r = draws'.port r) :
    makeRingAllReduce f params draws = makeRingAllReduce f params draws' := by
  unfold makeRingAllReduce
  dsimp only
  generalize (if params.gpuCount = 0 then u32 f.hostCount else params.gpuCount) = gpus at h ⊢
  split
  · split
    · refine congrArg (Option.map · _) (funext fun ranks => ?_)
      congr 1
      refine List.flatMap_congr fun s _ => List.map_congr_left fun r hr => ?_
      unfold AllReduce.ringFlow ephemeralPort
      rw [h r (List.mem_range.mp hr)]
    · rfl
  · rfl

/-- The generators on their streams, for any generator of words. The permutation is what the
model of it makes of the draws of each stream alone; these are draws below each position,
ports from 1024 on and starting times up to the jitter; the draws come to an end if among the
words that the fuel allows one for every host has its highest bit set; the shuffle does not
change with the jitter, and the ports neither with it nor with the number of hosts; and the
ring of a seed has the ports of the permutation of that seed. -/
theorem workload_from_streams (engine : UInt64 → Nat → UInt64) (fuel : Nat) :
    (∀ f params, makePermutationOn engine fuel f params =
      (Draws.ofStreams engine fuel params.seed (u32 f.hostCount) params.maxStartJitterNs).bind
        (makePermutation f params)) ∧
    (∀ seed n jitter draws, n ≤ 2 ^ 32 →
      Draws.ofStreams engine fuel seed n jitter = some draws → draws.Valid n ∧ ∀ h, h < n →
        (ephemeralPort draws h).toNat = 1024 + draws.port h ∧ ∀ m, draws.start m h ≤ jitter) ∧
    (∀ seed n jitter, (∀ name ∈ [kStreamPermutation, kStreamPorts, kStreamStartTimes],
        (RandomStream.create engine seed name).Rich fuel n) →
      (Draws.ofStreams engine fuel seed n jitter).isSome) ∧
    (∀ seed n n' jitter jitter' draws draws',
      Draws.ofStreams engine fuel seed n jitter = some draws →
      Draws.ofStreams engine fuel seed n' jitter' = some draws' →
        (n = n' → draws.swap = draws'.swap) ∧
          ∀ h, h < n → h < n' → draws.port h = draws'.port h) ∧
    ∀ f params n jitter draws, Draws.ofStreams engine fuel params.seed n jitter = some draws →
      (if params.gpuCount = 0 then u32 f.hostCount else params.gpuCount) ≤ n →
        makeRingAllReduceOn engine fuel f params = makeRingAllReduce f params draws := by
  refine ⟨makePermutationOn_eq engine fuel, fun seed n jitter draws hfit h => ?_,
    fun seed n jitter => isSome_ofStreams jitter, fun seed n n' jitter jitter' draws draws' h h' => ?_,
    fun f params n jitter draws h hle => ?_⟩
  · obtain ⟨hvalid, hall⟩ := ofStreams_valid hfit h
    refine ⟨hvalid, fun host hhost => ⟨?_, (hall host hhost).2⟩⟩
    have hport := (hall host hhost).1
    unfold ephemeralPort
    rw [u32_of_lt (by omega)]
    exact UInt16.toNat_ofNat_of_lt' (show 1024 + draws.port host < 2 ^ 16 by omega)
  · obtain ⟨swaps, ports, starts, s, p, t, hswaps, hports, hstarts, rfl⟩ := ofStreams_eq_some.mp h
    obtain ⟨swaps', ports', starts', s', p', t', hswaps', hports', hstarts', rfl⟩ :=
      ofStreams_eq_some.mp h'
    refine ⟨fun hn => ?_, fun host hhost hhost' => ?_⟩
    · subst hn
      rw [hswaps] at hswaps'
      obtain ⟨rfl, -⟩ := Prod.mk.inj (Option.some.inj hswaps')
      rfl
    · obtain ⟨first, q, hfirst, hsame⟩ := ports_of_le (Nat.min_le_left n n') hports
      obtain ⟨first', q', hfirst', hsame'⟩ := ports_of_le (Nat.min_le_right n n') hports'
      rw [hfirst] at hfirst'
      obtain ⟨rfl, -⟩ := Prod.mk.inj (Option.some.inj hfirst')
      have hmin : host < min n n' := Nat.lt_min.mpr ⟨hhost, hhost'⟩
      exact (hsame host hmin).symm.trans (hsame' host hmin)
  · obtain ⟨swaps, ports, starts, s, p, t, hswaps, hports, hstarts, rfl⟩ := ofStreams_eq_some.mp h
    obtain ⟨first, q, hfirst, hsame⟩ := ports_of_le hle hports
    unfold makeRingAllReduceOn
    dsimp only
    rw [hfirst, Option.bind_some]
    exact makeRingAllReduce_congr hsame

/-- Two hosts and the generator of the standard library: eight words are more than enough. -/
theorem workload_from_streams_two :
    (Draws.ofStreams mt19937_64 8 42 2 100).isSome := by
  apply (workload_from_streams mt19937_64 8).2.2.1
  -- counted by a list, since the names range over all words
  exact RandomStream.rich_of_all (by decide +kernel)

end FabricSim
