import FabricSim.Apps.Options
import FabricSim.Harness.Buildable

/-!
# What the command line checks, and what the library asserts

Every option is checked alone, before its cast. The cast of `--gpus`, `--window` and
`--queue` can lose bits (`stored_iff`), and no check compares the ring with the fabric or
with its buffer. Where neither goes wrong, and only there, the assertions hold
(`command_line_preconditions`).
-/

namespace FabricSim

/-! ## The configurations -/

namespace Options

variable (opt : Options)

def link : LinkParams where
  queueCapacityPkts := opt.queuePkts

def topology : FatTreeConfig where
  k := opt.k
  hostLink := opt.link
  fabricLink := opt.link

def transport : TransportConfig where
  ackBytes := opt.ackBytes
  rtoNs := opt.rtoNs

/-- The configuration of `run_permutation`. -/
def permutation : PermutationConfig where
  topology := opt.topology
  routing := opt.routing
  workload :=
    { seed := UInt64.ofNat opt.seed
      flowBytes := opt.flowBytes
      mtuBytes := opt.mtuBytes
      loadPermille := opt.loadPermille
      windowPkts := opt.windowPkts }
  transport := opt.transport

/-- The configuration of `run_all_reduce`. -/
def allReduce : AllReduceConfig where
  topology := opt.topology
  routing := opt.routing
  workload :=
    { seed := UInt64.ofNat opt.seed
      bufferBytes := opt.bufferBytes
      mtuBytes := opt.mtuBytes
      loadPermille := opt.loadPermille
      windowPkts := opt.windowPkts
      gpuCount := opt.gpus
      placement := opt.placement }
  transport := opt.transport

/-- What is left of the checks after the casts, the options that can lose bits apart. -/
structure Checked : Prop where
  k_two_le : 2 ≤ opt.k
  k_even : opt.k % 2 = 0
  k_le : opt.k ≤ 64
  bytes_pos : 0 < opt.flowBytes
  mtu_pos : 0 < opt.mtuBytes
  mtu_le : opt.mtuBytes ≤ kMaxPacketBytes
  load_pos : 0 < opt.loadPermille
  load_le : opt.loadPermille ≤ 1000
  ack_pos : 0 < opt.ackBytes
  ack_le : opt.ackBytes ≤ kMaxPacketBytes

/-- The lower bounds of the options that can lose bits; 0 ranks are all the hosts. -/
structure Bounded : Prop where
  window_pos : 0 < opt.windowPkts
  queue_pos : 0 < opt.queuePkts
  gpus_ge : opt.gpus = 0 ∨ 2 ≤ opt.gpus

namespace Checked

variable {opt} (h : opt.Checked)

include h

theorem fits : FatTree.Fits opt.k (opt.k / 2) := by
  apply FatTree.fits h.k_two_le h.k_even
  have hk := h.k_le
  have hsquare : 5 * opt.k ^ 2 / 4 ≤ 5120 := by
    have : opt.k ^ 2 ≤ 64 ^ 2 := Nat.pow_le_pow_left hk 2
    omega
  have hcube : opt.k ^ 3 / 4 ≤ 65536 := by
    have : opt.k ^ 3 ≤ 64 ^ 3 := Nat.pow_le_pow_left hk 3
    omega
  have := Nat.mul_le_mul hsquare hk
  omega

/-- A packet of a byte takes some of a nanosecond, and the rest of the round trip more. -/
theorem rto_pos {hops : Nat} (htwo : kFatTreeSameEdgeHops ≤ hops)
    (hsix : hops ≤ kFatTreeCrossPodHops) :
    0 < defaultRtoNs hops (serializationNs opt.mtuBytes opt.link.rate)
      (serializationNs opt.ackBytes opt.link.rate) opt.link.propDelayNs
      (u32 opt.link.queueCapacityPkts) := by
  have hlargest : serializationNs kMaxPacketBytes (gbps 100) = 737 := by decide +kernel
  have hser : serializationNs opt.mtuBytes opt.link.rate ≤ 737 :=
    (serializationNs_mono h.mtu_le _).trans_eq hlargest
  have hack : serializationNs opt.ackBytes opt.link.rate ≤ 737 :=
    (serializationNs_mono h.ack_le _).trans_eq hlargest
  have hqueue := Nat.mul_le_mul (u32_lt opt.link.queueCapacityPkts).le hser
  have hround := Nat.mul_le_mul hsix (Nat.mul_le_mul_left 2
    (Nat.add_le_add (Nat.add_le_add_right (Nat.add_le_add hser hack) (2 * 100)) hqueue))
  rw [defaultRtoNs_eq]
  change 0 < u64 (hops * (2 * (_ + _ + 2 * 100 + _)))
  rw [u64_of_lt (hround.trans_lt (by decide))]
  exact Nat.mul_pos (lt_of_lt_of_le (by decide) htwo) (by omega)

theorem sized_accepted {hops : Nat} (htwo : kFatTreeSameEdgeHops ≤ hops)
    (hsix : hops ≤ kFatTreeCrossPodHops) :
    (sizedTransport opt.transport opt.link opt.mtuBytes hops).Accepted :=
  sizedTransport_accepted (by decide : 0 < 8 ∧ 8 < 256) ⟨h.ack_pos, h.ack_le⟩ (h.rto_pos htwo hsix)

/-- The permutation runs under every assertion, whatever the casts did. -/
theorem permutation_builds {draws : Draws} (hdraws : draws.Valid (opt.k ^ 3 / 4)) :
    ∃ sc, buildPermutation opt.permutation draws = some sc ∧ sc.sim.transport.Accepted := by
  rw [h.fits.cube] at hdraws
  have hfits : FatTree.Fits opt.permutation.topology.k (opt.k / 2) := h.fits
  obtain ⟨sc, hsc, htransport⟩ := buildPermutation_builds hfits ⟨h.load_pos, h.load_le⟩
    ⟨h.mtu_pos, h.mtu_le⟩ h.bytes_pos hdraws
  refine ⟨sc, hsc, ?_⟩
  rw [htransport]
  exact h.sized_accepted (by decide) le_rfl

/-- Everything the harness asserts of a ring. -/
theorem allReduce_builds_iff (draws : Draws) :
    (∃ sc, buildAllReduce opt.allReduce draws = some sc ∧ sc.sim.transport.Accepted ∧
      2 ≤ sc.gpus ∧ sc.gpus ≤ sc.sim.fabric.hostCount ∧
      (opt.placement = .roundRobinPods → sc.gpus = sc.sim.fabric.hostCount) ∧
      0 < sc.chunkBytes) ↔ opt.allReduce.params.Fits (opt.k ^ 3 / 4) := by
  have hfits : FatTree.Fits opt.allReduce.topology.k (opt.k / 2) := h.fits
  have hiff := buildAllReduce_builds_iff hfits ⟨h.load_pos, h.load_le⟩ ⟨h.mtu_pos, h.mtu_le⟩ draws
  rw [h.fits.cube, ← hiff]
  constructor
  · intro ⟨sc, hsc, _⟩
    exact ⟨sc, hsc⟩
  · intro ⟨sc, hsc⟩
    have hring := hiff.mp ⟨sc, hsc⟩
    obtain ⟨ar, hmade, hcount, hgpus, hchunk, htransport⟩ := buildAllReduce_made hfits hsc
    have hranks : ar.gpus = opt.allReduce.params.ranks (FatTree.hostCount (opt.k / 2)) := by
      have heq := hmade.gpus_eq
      rw [hcount, u32_of_lt h.fits.hosts_lt] at heq
      exact heq
    have hpos : 0 < ar.gpus := Nat.lt_of_lt_of_le (by decide) hmade.gpus_ge
    obtain ⟨htwo, hsix⟩ := AllReduce.maxHops_bounds opt.k hpos
    refine ⟨sc, hsc, ?_, hgpus ▸ hmade.gpus_ge, hgpus ▸ hmade.gpus_le, fun hp => ?_,
      hchunk ▸ hmade.chunk_pos⟩
    · rw [htransport]
      exact h.sized_accepted htwo hsix
    · rw [hgpus, hcount, hranks]
      exact hring.all hp

end Checked

end Options

namespace CommandLine

/-! ## What the arguments give -/

/-- The number of an option, or what stands for it when it is not given. -/
def Number.value (o : Number) (args : List String) : Nat := (o.given args).getD (o.get {})

/-- The hosts of the fat tree of the last arity. -/
def hosts (args : List String) : Nat := Number.k.value args ^ 3 / 4

/-- As many ranks as asked for, or one on every host. -/
def ranks (args : List String) : Nat := (Number.gpus.given args).getD (hosts args)

/-- The three options whose bound is below only are given numbers of 32 bits. -/
structure Untruncated (args : List String) : Prop where
  gpus : Number.gpus.value args < 2 ^ 32
  window : Number.window.value args < 2 ^ 32
  queue : Number.queue.value args < 2 ^ 32

/-- The ring fits the fabric and its buffer. -/
structure RingFits (args : List String) : Prop where
  le_hosts : ranks args ≤ hosts args
  all : givenPlacement args ≠ some "seq" → ranks args = hosts args
  le_buffer : ranks args ≤ Number.buffer.value args

/-- Every number given is the number stored. -/
def Stored (args : List String) (opt : Options) : Prop :=
  ∀ (o : Number) (n : Nat), o.given args = some n → o.get opt = n

/-- A check that bounds from above bounds by what the field holds. -/
theorem Number.lt_width {o : Number} {n : Nat} (hn : o.Valid n) (hlt : n < 2 ^ 64)
    (ho : o ≠ .gpus ∧ o ≠ .window ∧ o ≠ .queue) : n < 2 ^ o.width := by
  cases o with
  | gpus => exact absurd rfl ho.1
  | window => exact absurd rfl ho.2.1
  | queue => exact absurd rfl ho.2.2
  | k => exact hn.2.2.trans_lt (by decide)
  | mtu => exact hn.2.trans_lt (by decide)
  | load => exact hn.2.trans_lt (by decide)
  | _ => exact hlt

section

variable {args : List String} {st : Parsed} (h : args.foldlM readArg {} = .ok st)

include h

theorem get_eq_value {o : Number} (ho : o.value args < 2 ^ o.width) :
    o.get st.options = o.value args := by
  rw [get_of_accepted h]
  unfold Number.value at ho ⊢
  cases hgiven : o.given args with
  | none => rfl
  | some n =>
    rw [hgiven] at ho
    exact Nat.mod_eq_of_lt ho

theorem valid_value {o : Number} (ho : o ≠ .gpus) : o.Valid (o.value args) := by
  unfold Number.value
  cases hgiven : o.given args with
  | none => exact Number.valid_default ho
  | some n => exact (valid_of_given h hgiven).1

theorem value_lt {o : Number} (ho : o ≠ .gpus ∧ o ≠ .window ∧ o ≠ .queue) :
    o.value args < 2 ^ o.width := by
  apply Number.lt_width (valid_value h ho.1) ?_ ho
  unfold Number.value
  cases hgiven : o.given args with
  | none => cases o <;> decide
  | some n => exact (valid_of_given h hgiven).2

/-- An option that loses no bits is stored as it was checked. -/
theorem valid_get {o : Number} (ho : o ≠ .gpus ∧ o ≠ .window ∧ o ≠ .queue) :
    o.get st.options = o.value args ∧ o.Valid (o.get st.options) := by
  have heq := get_eq_value h (value_lt h ho)
  exact ⟨heq, heq ▸ valid_value h ho.1⟩

theorem checked_of_accepted : st.options.Checked := by
  have hk := (valid_get (o := .k) h (by decide)).2
  have hbytes := (valid_get (o := .bytes) h (by decide)).2
  have hmtu := (valid_get (o := .mtu) h (by decide)).2
  have hload := (valid_get (o := .load) h (by decide)).2
  have hack := (valid_get (o := .ack) h (by decide)).2
  exact ⟨hk.1, hk.2.1, hk.2.2, hbytes, hmtu.1, hmtu.2, hload.1, hload.2, hack.1, hack.2⟩

theorem stored_iff : Stored args st.options ↔ Untruncated args := by
  have hcast : ∀ o : Number, Stored args st.options → o.get {} < 2 ^ o.width →
      o.value args < 2 ^ o.width := by
    intro o hstored hdefault
    unfold Number.value
    cases hgiven : o.given args with
    | none => exact hdefault
    | some n =>
      have hget := hstored o n hgiven
      rw [get_of_accepted h, hgiven] at hget
      have hmod : n % 2 ^ o.width = n := hget
      exact hmod ▸ Nat.mod_lt _ (Nat.two_pow_pos _)
  constructor
  · intro hstored
    exact ⟨hcast .gpus hstored (by decide), hcast .window hstored (by decide),
      hcast .queue hstored (by decide)⟩
  · intro hfit o n hgiven
    have hwidth : o.value args < 2 ^ o.width := by
      by_cases ho : o ≠ .gpus ∧ o ≠ .window ∧ o ≠ .queue
      · exact value_lt h ho
      · cases o with
        | gpus => exact hfit.gpus
        | window => exact hfit.window
        | queue => exact hfit.queue
        | _ => exact absurd (by decide) ho
    rw [get_eq_value h hwidth]
    unfold Number.value
    rw [hgiven]
    rfl

theorem bounded_of_untruncated (hfit : Untruncated args) : st.options.Bounded := by
  refine ⟨?_, ?_, ?_⟩
  · have hvalue : st.options.windowPkts = _ := get_eq_value (o := .window) h hfit.window
    rw [hvalue]
    exact valid_value (o := .window) h (by decide)
  · have hvalue : st.options.queuePkts = _ := get_eq_value (o := .queue) h hfit.queue
    rw [hvalue]
    exact valid_value (o := .queue) h (by decide)
  · have hvalue : st.options.gpus = Number.gpus.value args := get_eq_value (o := .gpus) h hfit.gpus
    rw [hvalue]
    unfold Number.value
    cases hgiven : Number.gpus.given args with
    | none => exact Or.inl rfl
    | some n => exact Or.inr (valid_of_given h hgiven).1

/-- The ring that is asked for is the one that is built. -/
theorem ringFits_iff (hfit : Untruncated args) :
    st.options.allReduce.params.Fits (st.options.k ^ 3 / 4) ↔ RingFits args := by
  have hchecked := checked_of_accepted h
  have hk : st.options.k = Number.k.value args := (valid_get (o := .k) h (by decide)).1
  have hbuffer : st.options.bufferBytes = Number.buffer.value args :=
    (valid_get (o := .buffer) h (by decide)).1
  have hgpus : st.options.gpus = Number.gpus.value args := get_eq_value (o := .gpus) h hfit.gpus
  have hhosts : st.options.k ^ 3 / 4 = hosts args := by
    unfold hosts
    rw [hk]
  have htwo : 2 ≤ hosts args := by
    rw [← hhosts, hchecked.fits.cube]
    exact FatTree.two_le_hostCount hchecked.fits.pos
  have hranks : st.options.allReduce.params.ranks (hosts args) = ranks args := by
    unfold AllReduceParams.ranks ranks
    change (if st.options.gpus = 0 then _ else st.options.gpus) = _
    rw [hgpus]
    unfold Number.value
    cases hgiven : Number.gpus.given args with
    | none => exact if_pos rfl
    | some n =>
      have hn : 2 ≤ n := (valid_of_given h hgiven).1
      exact if_neg (show n ≠ 0 by omega)
  have hplacement : st.options.placement = .roundRobinPods ↔ givenPlacement args ≠ some "seq" := by
    rw [placement_of_accepted h]
    split
    · next hseq => exact iff_of_false (by decide) fun hne => hne hseq
    · next hseq => exact iff_of_true rfl hseq
  rw [hhosts]
  constructor
  · intro hring
    exact ⟨hranks ▸ hring.le_hosts, fun hp => hranks ▸ hring.all (hplacement.mpr hp),
      hranks ▸ hbuffer ▸ hring.le_buffer⟩
  · intro hring
    refine ⟨?_, hranks.symm ▸ hring.le_hosts,
      fun hp => hranks.symm ▸ hring.all (hplacement.mp hp), ?_⟩
    · rw [hranks]
      unfold ranks
      cases hgiven : Number.gpus.given args with
      | none => exact htwo
      | some n => exact (valid_of_given h hgiven).1
    · rw [hranks]
      exact hring.le_buffer.trans_eq hbuffer.symm

end

/-- The options of a job are what the loop made of the arguments. -/
theorem loop_of_main {args : List String} {job : Job} (h : main args = .ok job) :
    ∃ st, args.foldlM readArg {} = .ok st ∧
      ∀ opt, job = .permutation opt ∨ job = .allReduce opt → opt = st.options := by
  unfold main at h
  split at h
  · nomatch h
  · next st hst =>
    refine ⟨st, hst, fun opt hjob => ?_⟩
    split at h
    · obtain rfl := Except.ok.inj h
      obtain hjob | hjob := hjob
      · nomatch hjob
      · nomatch hjob
    · split at h
      · obtain rfl := Except.ok.inj h
        obtain hjob | hjob := hjob
        · exact (Job.permutation.inj hjob).symm
        · nomatch hjob
      · split at h
        · obtain rfl := Except.ok.inj h
          obtain hjob | hjob := hjob
          · nomatch hjob
          · exact (Job.allReduce.inj hjob).symm
        · nomatch h

/-- The arguments are accepted, and an assertion fails before the run. -/
def Unbuildable (args : List String) : Prop :=
  ∃ opt, main args = .ok (.allReduce opt) ∧ ∀ draws, buildAllReduce opt.allReduce draws = none

theorem unbuildable {args : List String} {opt : Options} (h : main args = .ok (.allReduce opt))
    (hfit : Untruncated args) (hring : ¬ RingFits args) : Unbuildable args := by
  obtain ⟨st, hst, hopt⟩ := loop_of_main h
  obtain rfl := hopt opt (Or.inr rfl)
  have hchecked := checked_of_accepted hst
  have hfits : FatTree.Fits st.options.allReduce.topology.k (st.options.k / 2) := hchecked.fits
  refine ⟨st.options, h, fun draws => Option.eq_none_iff_forall_ne_some.mpr fun sc hsc => hring ?_⟩
  rw [← ringFits_iff hst hfit, hchecked.fits.cube]
  exact (buildAllReduce_builds_iff hfits ⟨hchecked.load_pos, hchecked.load_le⟩
    ⟨hchecked.mtu_pos, hchecked.mtu_le⟩ draws).mp ⟨sc, hsc⟩

/-- For the arguments that `main` accepts for `permutation`, what is stored is what was
checked, with its bounds, and the scenario is built and begun under every assertion, if and
only if no cast loses bits. For `allreduce` the ring has to fit as well. -/
theorem command_line_preconditions (args : List String) (opt : Options) :
    (main args = .ok (.permutation opt) →
      ∀ draws : Draws, draws.Valid (opt.k ^ 3 / 4) →
        ((Stored args opt ∧ opt.Bounded ∧
          ∃ sc, buildPermutation opt.permutation draws = some sc ∧ sc.sim.transport.Accepted) ↔
        Untruncated args)) ∧
    (main args = .ok (.allReduce opt) →
      ∀ draws : Draws,
        ((Stored args opt ∧ opt.Bounded ∧
          ∃ sc, buildAllReduce opt.allReduce draws = some sc ∧ sc.sim.transport.Accepted ∧
            2 ≤ sc.gpus ∧ sc.gpus ≤ sc.sim.fabric.hostCount ∧
            (opt.placement = .roundRobinPods → sc.gpus = sc.sim.fabric.hostCount) ∧
            0 < sc.chunkBytes) ↔
        Untruncated args ∧ RingFits args)) := by
  constructor
  · intro h draws hdraws
    obtain ⟨st, hst, hopt⟩ := loop_of_main h
    obtain rfl := hopt opt (Or.inl rfl)
    constructor
    · intro ⟨hstored, _⟩
      exact (stored_iff hst).mp hstored
    · intro hfit
      exact ⟨(stored_iff hst).mpr hfit, bounded_of_untruncated hst hfit,
        (checked_of_accepted hst).permutation_builds hdraws⟩
  · intro h draws
    obtain ⟨st, hst, hopt⟩ := loop_of_main h
    obtain rfl := hopt opt (Or.inr rfl)
    have hbuilds := (checked_of_accepted hst).allReduce_builds_iff draws
    constructor
    · intro ⟨hstored, _, hbuilt⟩
      have hfit := (stored_iff hst).mp hstored
      exact ⟨hfit, (ringFits_iff hst hfit).mp (hbuilds.mp hbuilt)⟩
    · intro ⟨hfit, hring⟩
      exact ⟨(stored_iff hst).mpr hfit, bounded_of_untruncated hst hfit,
        hbuilds.mpr ((ringFits_iff hst hfit).mpr hring)⟩

/-! ## Arguments that are accepted -/

/-- Three ranks on two hosts. -/
def tooManyRanks : List String := ["--scenario=allreduce", "--k=2", "--gpus=3", "--placement=seq"]

/-- The lowest bit set is the 33rd. -/
def wideRanks : List String := ["--scenario=allreduce", "--gpus=4294967296"]

/-- Four ranks over the pods of sixteen hosts. -/
def fewRanks : List String := ["--scenario=allreduce", "--k=4", "--gpus=4"]

/-- A byte for two ranks. -/
def smallBuffer : List String := ["--scenario=allreduce", "--k=2", "--buffer=1"]

/-- All four are accepted; the first stores another number than it checked, the others
fail an assertion. -/
theorem command_line_preconditions_fail :
    (∃ opt, main wideRanks = .ok (.allReduce opt) ∧ ¬ Stored wideRanks opt ∧ opt.gpus = 0) ∧
      Unbuildable tooManyRanks ∧ Unbuildable fewRanks ∧ Unbuildable smallBuffer := by
  refine ⟨⟨{ gpus := 0 }, by decide +kernel, fun hstored => ?_, rfl⟩, ?_, ?_, ?_⟩
  · have hgiven : Number.gpus.given wideRanks = some (2 ^ 32) := by decide +kernel
    exact absurd (hstored .gpus _ hgiven) (by decide)
  · have hmain : main tooManyRanks =
        .ok (.allReduce { k := 2, gpus := 3, placement := .sequential }) := by decide +kernel
    exact unbuildable hmain ⟨by decide +kernel, by decide +kernel, by decide +kernel⟩
      fun hring => absurd hring.le_hosts (by decide +kernel)
  · have hmain : main fewRanks = .ok (.allReduce { k := 4, gpus := 4 }) := by decide +kernel
    exact unbuildable hmain ⟨by decide +kernel, by decide +kernel, by decide +kernel⟩
      fun hring => absurd (hring.all (by decide +kernel)) (by decide +kernel)
  · have hmain : main smallBuffer = .ok (.allReduce { k := 2, bufferBytes := 1 }) := by
      decide +kernel
    exact unbuildable hmain ⟨by decide +kernel, by decide +kernel, by decide +kernel⟩
      fun hring => absurd hring.le_buffer (by decide +kernel)

/-- Numbers for the three options that are narrowed. -/
def givenNumbers : List String :=
  ["--scenario=allreduce", "--k=4", "--placement=seq", "--gpus=4", "--window=16", "--queue=64"]

def givenOptions : Options :=
  { k := 4, placement := .sequential, gpus := 4, windowPkts := 16, queuePkts := 64 }

/-- The defaults of both scenarios, and numbers that are given. -/
theorem command_line_preconditions_defaults :
    (∃ sc, buildPermutation ({} : Options).permutation {} = some sc ∧
      sc.sim.transport.Accepted) ∧
    (∃ sc, buildAllReduce ({} : Options).allReduce {} = some sc ∧
      sc.gpus = sc.sim.fabric.hostCount) ∧
    Stored givenNumbers givenOptions ∧
    ∃ sc, buildAllReduce givenOptions.allReduce {} = some sc ∧ 2 ≤ sc.gpus := by
  have hpermutation := (command_line_preconditions ["--scenario=permutation"] {}).1
    (by decide +kernel) {} (fun i hi _ => hi)
  have hring := (command_line_preconditions ["--scenario=allreduce"] {}).2 (by decide +kernel) {}
  obtain ⟨-, -, built⟩ := hpermutation.mpr
    ⟨by decide +kernel, by decide +kernel, by decide +kernel⟩
  obtain ⟨-, -, sc, hsc, -, -, -, hall, -⟩ := hring.mpr
    ⟨⟨by decide +kernel, by decide +kernel, by decide +kernel⟩, by decide +kernel,
      fun _ => by decide +kernel, by decide +kernel⟩
  obtain ⟨hstored, -, sc', hsc', -, htwo, -⟩ :=
    ((command_line_preconditions givenNumbers givenOptions).2 (by decide +kernel) {}).mpr
      ⟨⟨by decide +kernel, by decide +kernel, by decide +kernel⟩, by decide +kernel,
        fun h => absurd rfl h, by decide +kernel⟩
  exact ⟨built, ⟨sc, hsc, hall rfl⟩, hstored, sc', hsc', htwo⟩

end CommandLine

end FabricSim
