import FabricSim.Harness.Scenario
import FabricSim.Lib.Overwrite

/-!
# The command line

`main` goes over the arguments in order. Each is the text `--key=value` of one setting; a
number is read into 64 bits, checked, and stored in a field that may have fewer
(`Number.width`). The last argument of a setting is the one that stays
(`get_of_accepted`).
-/

namespace FabricSim

structure Options where
  k : Nat := 8
  routing : RoutingAlgorithm := .ecmp
  seed : Nat := 0
  flowBytes : Nat := 1000000
  bufferBytes : Nat := 1920000
  /-- 0: every host of the fabric. -/
  gpus : Nat := 0
  placement : RingPlacement := .roundRobinPods
  mtuBytes : Nat := 1500
  loadPermille : Nat := 1000
  windowPkts : Nat := 32
  ackBytes : Nat := 64
  /-- 0: sized from the topology. -/
  rtoNs : Nat := 0
  queuePkts : Nat := 128
  deriving DecidableEq, Repr

namespace CommandLine

/-- `--key=value`, returning the value if `arg` matches `key`. -/
def matchValue (arg key : String) : Option String :=
  if key.toList.isPrefixOf arg.toList ∧ arg.toList[key.toList.length]? = some '=' then
    some (String.ofList (arg.toList.drop (key.toList.length + 1)))
  else none

/-- The number that digits spell. -/
def digitsValue (s : List Char) : Nat :=
  s.foldl (fun n c => 10 * n + (c.toNat - '0'.toNat)) 0

/-- All of `s` is decimal digits, at least one, and the number fits 64 bits. -/
def parseU64 (s : String) : Option Nat :=
  if s.toList ≠ [] ∧ s.toList.all Char.isDigit ∧ digitsValue s.toList < 2 ^ 64 then
    some (digitsValue s.toList)
  else none

/-- Why `main` returns before it runs anything. -/
inductive Exit where
  | help
  | badValue (message : String)
  /-- The usage follows the message. -/
  | badUsage (message : String)
  deriving DecidableEq, Repr

def Exit.code : Exit → Nat
  | .help => 0
  | .badValue _ | .badUsage _ => 2

/-- What the loop over the arguments keeps. -/
structure Parsed where
  scenario : String := "smoke"
  options : Options := {}
  deriving DecidableEq, Repr

/-! ## The numeric options -/

inductive Number where
  | k | seed | bytes | buffer | gpus | mtu | load | window | ack | rto | queue
  deriving DecidableEq, Repr

namespace Number

def key : Number → String
  | k => "--k"
  | seed => "--seed"
  | bytes => "--bytes"
  | buffer => "--buffer"
  | gpus => "--gpus"
  | mtu => "--mtu"
  | load => "--load"
  | window => "--window"
  | ack => "--ack"
  | rto => "--rto"
  | queue => "--queue"

/-- What is checked of the number before it is stored. -/
def Valid (n : Nat) : Number → Prop
  | k => 2 ≤ n ∧ n % 2 = 0 ∧ n ≤ 64
  | gpus => 2 ≤ n
  | mtu | ack => 0 < n ∧ n ≤ kMaxPacketBytes
  | load => 0 < n ∧ n ≤ 1000
  | bytes | buffer | window | queue => 0 < n
  | seed | rto => True

instance (n : Nat) : (o : Number) → Decidable (o.Valid n)
  | k => inferInstanceAs (Decidable (2 ≤ n ∧ n % 2 = 0 ∧ n ≤ 64))
  | gpus => inferInstanceAs (Decidable (2 ≤ n))
  | mtu | ack => inferInstanceAs (Decidable (0 < n ∧ n ≤ kMaxPacketBytes))
  | load => inferInstanceAs (Decidable (0 < n ∧ n ≤ 1000))
  | bytes | buffer | window | queue => inferInstanceAs (Decidable (0 < n))
  | seed | rto => inferInstanceAs (Decidable True)

def message : Number → String
  | k => "fabricsim: --k must be an even number in [2, 64]\n"
  | seed => "fabricsim: --seed must be a number\n"
  | bytes => "fabricsim: --bytes must be positive\n"
  | buffer => "fabricsim: --buffer must be positive\n"
  | gpus => "fabricsim: --gpus must be at least 2\n"
  | mtu => "fabricsim: --mtu must be in [1, 9216]\n"
  | load => "fabricsim: --load must be in [1, 1000] permille\n"
  | window => "fabricsim: --window must be positive\n"
  | ack => "fabricsim: --ack must be in [1, 9216]\n"
  | rto => "fabricsim: --rto must be a number of nanoseconds\n"
  | queue => "fabricsim: --queue must be positive\n"

/-- The bits of the field that the number is cast to. -/
def width : Number → Nat
  | mtu => 16
  | k | gpus | load | window | queue => 32
  | seed | bytes | buffer | ack | rto => 64

def get (opt : Options) : Number → Nat
  | k => opt.k
  | seed => opt.seed
  | bytes => opt.flowBytes
  | buffer => opt.bufferBytes
  | gpus => opt.gpus
  | mtu => opt.mtuBytes
  | load => opt.loadPermille
  | window => opt.windowPkts
  | ack => opt.ackBytes
  | rto => opt.rtoNs
  | queue => opt.queuePkts

def set (opt : Options) (n : Nat) : Number → Options
  | k => { opt with k := n }
  | seed => { opt with seed := n }
  | bytes => { opt with flowBytes := n }
  | buffer => { opt with bufferBytes := n }
  | gpus => { opt with gpus := n }
  | mtu => { opt with mtuBytes := n }
  | load => { opt with loadPermille := n }
  | window => { opt with windowPkts := n }
  | ack => { opt with ackBytes := n }
  | rto => { opt with rtoNs := n }
  | queue => { opt with queuePkts := n }

/-- The cast to the field. -/
def narrow (o : Number) (n : Nat) : Nat := n % 2 ^ o.width

def read (o : Number) (value : String) (st : Parsed) : Except Exit Parsed :=
  match parseU64 value with
  | some n =>
    if o.Valid n then .ok { st with options := o.set st.options (o.narrow n) }
    else .error (.badValue o.message)
  | none => .error (.badValue o.message)

end Number

/-! ## The loop over the arguments -/

def parseRouting (name : String) : Option RoutingAlgorithm :=
  if name = "ecmp" then some .ecmp else if name = "static" then some .staticFirst else none

def parsePlacement (name : String) : Option RingPlacement :=
  if name = "pods" then some .roundRobinPods else if name = "seq" then some .sequential else none

inductive Setting where
  | scenario | routing | placement
  | number (o : Number)
  deriving DecidableEq, Repr

namespace Setting

def key : Setting → String
  | scenario => "--scenario"
  | routing => "--routing"
  | placement => "--placement"
  | number o => o.key

def read (value : String) (st : Parsed) : Setting → Except Exit Parsed
  | scenario => .ok { st with scenario := value }
  | routing =>
    match parseRouting value with
    | some algo => .ok { st with options := { st.options with routing := algo } }
    | none => .error (.badValue "fabricsim: --routing must be ecmp or static\n")
  | placement =>
    match parsePlacement value with
    | some p => .ok { st with options := { st.options with placement := p } }
    | none => .error (.badValue "fabricsim: --placement must be pods or seq\n")
  | number o => o.read value st

end Setting

/-- The settings in the order in which an argument is compared with them. -/
def settings : List Setting :=
  [.scenario, .number .k, .routing, .placement, .number .seed, .number .bytes, .number .buffer,
    .number .gpus, .number .mtu, .number .load, .number .window, .number .ack, .number .rto,
    .number .queue]

/-- The first of the settings that the argument matches reads it. -/
def readWith : List Setting → Parsed → String → Except Exit Parsed
  | [], _, arg => .error (.badUsage ("fabricsim: unrecognised argument '" ++ arg ++ "'\n"))
  | s :: rest, st, arg =>
    match matchValue arg s.key with
    | some value => s.read value st
    | none => readWith rest st arg

def readArg (st : Parsed) (arg : String) : Except Exit Parsed :=
  if arg = "--help" ∨ arg = "-h" then .error .help else readWith settings st arg

/-- What `main` goes on to run. -/
inductive Job where
  | smoke
  | permutation (opt : Options)
  | allReduce (opt : Options)
  deriving DecidableEq, Repr

/-- `main` up to the run, on the arguments after the program's name. -/
def main (args : List String) : Except Exit Job :=
  match args.foldlM readArg {} with
  | .error e => .error e
  | .ok st =>
    if st.scenario = "smoke" then .ok .smoke
    else if st.scenario = "permutation" then .ok (.permutation st.options)
    else if st.scenario = "allreduce" then .ok (.allReduce st.options)
    else .error (.badUsage ("fabricsim: unknown scenario '" ++ st.scenario ++ "'\n"))

/-! ## What an argument sets -/

theorem toList_of_matchValue {arg key value : String} (h : matchValue arg key = some value) :
    arg.toList = key.toList ++ '=' :: value.toList := by
  unfold matchValue at h
  split at h
  · next hmatch =>
    obtain rfl := Option.some.inj h
    obtain ⟨rest, hrest⟩ := List.isPrefixOf_iff_prefix.mp hmatch.1
    have hsign := hmatch.2
    rw [← hrest, List.getElem?_append_right le_rfl, Nat.sub_self] at hsign
    rw [String.toList_ofList, ← hrest, List.drop_append, Nat.add_sub_cancel_left,
      List.drop_eq_nil_of_le (Nat.le_succ _), List.nil_append]
    cases rest with
    | nil => nomatch hsign
    | cons c rest =>
      obtain rfl := Option.some.inj hsign
      rfl
  · nomatch h

/-- The key is what comes before the first sign. -/
theorem takeWhile_of_matchValue {arg key value : String} (h : matchValue arg key = some value)
    (hkey : '=' ∉ key.toList) : arg.toList.takeWhile (fun c => c != '=') = key.toList := by
  rw [toList_of_matchValue h, List.takeWhile_append_of_pos, List.takeWhile_cons_of_neg,
    List.append_nil]
  · decide
  · intro c hc
    rw [bne_iff_ne]
    exact fun heq => hkey (heq ▸ hc)

theorem parseU64_lt {s : String} {n : Nat} (h : parseU64 s = some n) : n < 2 ^ 64 := by
  unfold parseU64 at h
  split at h
  · next hdigits =>
    obtain rfl := Option.some.inj h
    exact hdigits.2.2
  · nomatch h

namespace Number

theorem get_set (opt : Options) (n : Nat) (o o' : Number) :
    o.get (o'.set opt n) = if o = o' then n else o.get opt := by
  cases o <;> cases o' <;> rfl

@[simp] theorem routing_set (opt : Options) (n : Nat) (o : Number) :
    (o.set opt n).routing = opt.routing := by
  cases o <;> rfl

@[simp] theorem placement_set (opt : Options) (n : Nat) (o : Number) :
    (o.set opt n).placement = opt.placement := by
  cases o <;> rfl

theorem read_eq_ok {o : Number} {value : String} {st st' : Parsed}
    (h : o.read value st = .ok st') : ∃ n, parseU64 value = some n ∧ o.Valid n ∧
      st' = { st with options := o.set st.options (o.narrow n) } := by
  unfold read at h
  split at h
  · next n hparse =>
    split at h
    · next hvalid => exact ⟨n, hparse, hvalid, (Except.ok.inj h).symm⟩
    · nomatch h
  · nomatch h

end Number

namespace Setting

theorem sign_not_mem_key (s : Setting) : '=' ∉ s.key.toList := by
  cases s with
  | number o => cases o <;> decide
  | _ => decide

theorem read_routing_eq_ok {value : String} {st st' : Parsed}
    (h : routing.read value st = .ok st') : ∃ algo, parseRouting value = some algo ∧
      st' = { st with options := { st.options with routing := algo } } := by
  unfold read at h
  dsimp only at h
  split at h
  · next algo halgo => exact ⟨algo, halgo, (Except.ok.inj h).symm⟩
  · nomatch h

theorem read_placement_eq_ok {value : String} {st st' : Parsed}
    (h : placement.read value st = .ok st') : ∃ p, parsePlacement value = some p ∧
      st' = { st with options := { st.options with placement := p } } := by
  unfold read at h
  dsimp only at h
  split at h
  · next p hp => exact ⟨p, hp, (Except.ok.inj h).symm⟩
  · nomatch h

theorem mem_settings (s : Setting) : s ∈ settings := by
  cases s with
  | number o => cases o <;> decide
  | _ => decide

theorem key_inj {s s' : Setting} (h : s.key = s'.key) : s = s' := by
  have hkeys : (settings.map key).Nodup := by decide
  exact List.inj_on_of_nodup_map hkeys (mem_settings s) (mem_settings s') h

/-- An argument is the text of one setting only. -/
theorem eq_of_matchValue {s s' : Setting} {arg value value' : String}
    (h : matchValue arg s.key = some value) (h' : matchValue arg s'.key = some value') :
    s = s' := by
  apply key_inj
  apply String.toList_inj.mp
  rw [← takeWhile_of_matchValue h s.sign_not_mem_key,
    ← takeWhile_of_matchValue h' s'.sign_not_mem_key]

end Setting

theorem readWith_eq_ok {known : List Setting} {st st' : Parsed} {arg : String}
    (h : readWith known st arg = .ok st') :
    ∃ s ∈ known, ∃ value, matchValue arg s.key = some value ∧ s.read value st = .ok st' := by
  induction known with
  | nil => nomatch h
  | cons s rest ih =>
    unfold readWith at h
    split at h
    · next value hvalue => exact ⟨s, List.mem_cons_self, value, hvalue, h⟩
    · obtain ⟨s', hmem, hread⟩ := ih h
      exact ⟨s', List.mem_cons_of_mem _ hmem, hread⟩

/-- An argument that is accepted is the text of one setting. -/
theorem readArg_eq_ok {st st' : Parsed} {arg : String} (h : readArg st arg = .ok st') :
    ∃ (s : Setting) (value : String), matchValue arg s.key = some value ∧
      s.read value st = .ok st' := by
  unfold readArg at h
  split at h
  · nomatch h
  · obtain ⟨s, -, hread⟩ := readWith_eq_ok h
    exact ⟨s, hread⟩

/-! ## What stays -/

/-- The number that the last argument of the option gives, before any cast. -/
def Number.given (o : Number) (args : List String) : Option Nat :=
  (args.filterMap fun arg => (matchValue arg o.key).bind parseU64).getLast?

def givenPlacement (args : List String) : Option String :=
  (args.filterMap fun arg => matchValue arg Setting.placement.key).getLast?

section

variable {st st' : Parsed} {arg : String} (h : readArg st arg = .ok st')

include h

/-- One argument changes the number of its own setting only. -/
theorem get_readArg (o : Number) : o.get st'.options =
    ((matchValue arg o.key).bind parseU64).elim (o.get st.options) o.narrow := by
  obtain ⟨s, value, hmatch, hread⟩ := readArg_eq_ok h
  by_cases hs : s = .number o
  · subst hs
    obtain ⟨n, hparse, -, rfl⟩ := Number.read_eq_ok hread
    have hown : matchValue arg o.key = some value := hmatch
    rw [hown, Option.bind_some, hparse]
    exact (Number.get_set _ _ o o).trans (if_pos rfl)
  · have hother : matchValue arg (Setting.number o).key = none :=
      Option.eq_none_iff_forall_ne_some.mpr fun v hv => hs (Setting.eq_of_matchValue hmatch hv)
    change matchValue arg o.key = none at hother
    rw [hother]
    cases s with
    | scenario =>
      obtain rfl := Except.ok.inj hread
      rfl
    | routing =>
      obtain ⟨algo, -, rfl⟩ := Setting.read_routing_eq_ok hread
      cases o <;> rfl
    | placement =>
      obtain ⟨p, -, rfl⟩ := Setting.read_placement_eq_ok hread
      cases o <;> rfl
    | number o' =>
      obtain ⟨n, -, -, rfl⟩ := Number.read_eq_ok hread
      exact (Number.get_set _ _ o o').trans (if_neg fun heq => hs (congrArg Setting.number heq.symm))

theorem valid_readArg {o : Number} {n : Nat}
    (hn : (matchValue arg o.key).bind parseU64 = some n) : o.Valid n := by
  obtain ⟨value, hvalue, hparse⟩ := Option.bind_eq_some_iff.mp hn
  change matchValue arg (Setting.number o).key = some value at hvalue
  obtain ⟨s, value', hmatch, hread⟩ := readArg_eq_ok h
  obtain rfl := Setting.eq_of_matchValue hmatch hvalue
  obtain rfl : value' = value := Option.some.inj (hmatch.symm.trans hvalue)
  obtain ⟨m, hm, hvalid, -⟩ := Number.read_eq_ok hread
  obtain rfl : m = n := Option.some.inj (hm.symm.trans hparse)
  exact hvalid

theorem placement_readArg : st'.options.placement =
    (matchValue arg Setting.placement.key).elim st.options.placement
      fun name => if name = "seq" then .sequential else .roundRobinPods := by
  obtain ⟨s, value, hmatch, hread⟩ := readArg_eq_ok h
  by_cases hs : s = .placement
  · subst hs
    rw [hmatch]
    obtain ⟨p, hp, rfl⟩ := Setting.read_placement_eq_ok hread
    unfold parsePlacement at hp
    split at hp
    · next hpods =>
      subst hpods
      exact (Option.some.inj hp).symm
    · split at hp
      · next hseq =>
        subst hseq
        exact (Option.some.inj hp).symm
      · nomatch hp
  · have hother : matchValue arg Setting.placement.key = none :=
      Option.eq_none_iff_forall_ne_some.mpr fun v hv => hs (Setting.eq_of_matchValue hmatch hv)
    rw [hother]
    cases s with
    | scenario =>
      obtain rfl := Except.ok.inj hread
      rfl
    | routing =>
      obtain ⟨algo, -, rfl⟩ := Setting.read_routing_eq_ok hread
      rfl
    | placement => exact absurd rfl hs
    | number o =>
      obtain ⟨n, -, -, rfl⟩ := Number.read_eq_ok hread
      exact o.placement_set _ _

end

/-- Every check passes on the options nobody set, but for the ring's size, where 0 stands
for every host. -/
theorem Number.valid_default {o : Number} (h : o ≠ .gpus) : o.Valid (o.get {}) := by
  cases o with
  | gpus => exact absurd rfl h
  | _ => decide

section

variable {args : List String} {st : Parsed} (h : args.foldlM readArg {} = .ok st)

include h

/-- Of a number given many times the last stays, cast to its field. -/
theorem get_of_accepted (o : Number) :
    o.get st.options = (o.given args).elim (o.get {}) o.narrow := by
  have hstep : ∀ s arg t, readArg s arg = .ok t → o.get t.options =
      ((matchValue arg o.key).bind parseU64).elim (o.get s.options) o.narrow :=
    fun _ _ _ hread => get_readArg hread o
  exact Overwrite.obs_of_foldlM hstep h

theorem placement_of_accepted : st.options.placement =
    if givenPlacement args = some "seq" then .sequential else .roundRobinPods := by
  have hstep : ∀ s arg t, readArg s arg = .ok t → t.options.placement =
      (matchValue arg Setting.placement.key).elim s.options.placement
        fun name => if name = "seq" then .sequential else .roundRobinPods :=
    fun _ _ _ hread => placement_readArg hread
  have hlast : st.options.placement = (givenPlacement args).elim .roundRobinPods
      fun name => if name = "seq" then .sequential else .roundRobinPods :=
    Overwrite.obs_of_foldlM hstep h
  rw [hlast]
  cases givenPlacement args with
  | none => rfl
  | some name => simp only [Option.elim_some, Option.some_inj]

/-- What an option was given last was checked. -/
theorem valid_of_given {o : Number} {n : Nat} (hn : o.given args = some n) :
    o.Valid n ∧ n < 2 ^ 64 := by
  obtain ⟨arg, harg, hgive⟩ := List.mem_filterMap.mp (List.mem_of_getLast? hn)
  obtain ⟨mid, next, hread⟩ := Overwrite.stepped_of_foldlM h harg
  obtain ⟨value, -, hparse⟩ := Option.bind_eq_some_iff.mp hgive
  exact ⟨valid_readArg hread hgive, parseU64_lt hparse⟩

end

end CommandLine

end FabricSim
