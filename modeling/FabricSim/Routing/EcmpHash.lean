import FabricSim.Lib.Buckets
import FabricSim.Lib.Words
import FabricSim.Routing.Policy
import Mathlib.Data.Set.Card

/-!
# What the ECMP hash keeps

`mix64` is a bijection: its steps are xor-shifts and multiplications by odd
constants. The fields of the 5-tuple do not overlap in the two packed words, so a
difference in one word, or in the salt, is a difference of the hash.

The index is cut from the top half of the hash: `hashToIndex` scales `2^32` values
onto the candidates, so every candidate gets its share of them, rounded.
-/

namespace FabricSim

/-! ## Nothing is lost -/

theorem mix64_injective : Function.Injective mix64 := by
  intro x y h
  unfold mix64 at h
  dsimp only at h
  have h4 := Words.xorShift64_injective (by decide) h
  have h3 := Words.mul64_injective (d := 0x319642B2D24D8EC3) (by decide) h4
  have h2 := Words.xorShift64_injective (by decide) h3
  have h1 := Words.mul64_injective (d := 0x96DE1B173F119089) (by decide) h2
  exact Words.xorShift64_injective (by decide) h1

theorem mix64_bijective : Function.Bijective mix64 :=
  Finite.injective_iff_bijective.mp mix64_injective

/-- The word of the two addresses. -/
def FlowKey.addrs (k : FlowKey) : UInt64 := (k.srcIp.toUInt64 <<< 32) ||| k.dstIp.toUInt64

/-- The word of the ports and the protocol. -/
def FlowKey.ports (k : FlowKey) : UInt64 :=
  (k.srcPort.toUInt64 <<< 48) ||| (k.dstPort.toUInt64 <<< 32) ||| (k.protocol.toUInt64 <<< 24)

theorem flowHash_eq (k : FlowKey) (salt : UInt64) :
    flowHash k salt = mix64 (mix64 (k.addrs ^^^ 0x9E3779B97F4A7C15) ^^^ k.ports ^^^ salt) := rfl

theorem FlowKey.toNat_addrs (k : FlowKey) :
    k.addrs.toNat = k.srcIp.toNat * 2 ^ 32 + k.dstIp.toNat := by
  have hsrc := k.srcIp.toNat_lt
  have hdst := k.dstIp.toNat_lt
  exact Words.toNat_pack (by decide) (by simpa using hsrc) (by simpa using hdst)

theorem FlowKey.toNat_ports (k : FlowKey) :
    k.ports.toNat = k.srcPort.toNat * 2 ^ 48 + (k.dstPort.toNat * 2 ^ 32 +
      k.protocol.toNat * 2 ^ 24) := by
  have hsrc := k.srcPort.toNat_lt
  have hdst := k.dstPort.toNat_lt
  have hproto := k.protocol.toNat_lt
  have hlow : (k.protocol.toUInt64 <<< 24).toNat = k.protocol.toNat * 2 ^ 24 := by
    rw [UInt64.toNat_shiftLeft, Nat.shiftLeft_eq]
    exact Nat.mod_eq_of_lt (by simp; omega)
  have hmid : ((k.dstPort.toUInt64 <<< 32) ||| (k.protocol.toUInt64 <<< 24)).toNat =
      k.dstPort.toNat * 2 ^ 32 + k.protocol.toNat * 2 ^ 24 := by
    rw [Words.toNat_pack (by decide) (by simp; omega) (by rw [hlow]; simp; omega), hlow]
    rfl
  unfold FlowKey.ports
  rw [UInt64.or_assoc, Words.toNat_pack (by decide) (by simpa using hsrc)
    (by rw [hmid]; simp; omega), hmid]
  rfl

theorem FlowKey.addrs_inj {k k' : FlowKey} (h : k.addrs = k'.addrs) :
    k.srcIp = k'.srcIp ∧ k.dstIp = k'.dstIp := by
  have hval := congrArg UInt64.toNat h
  rw [k.toNat_addrs, k'.toNat_addrs] at hval
  have hdst := k.dstIp.toNat_lt
  have hdst' := k'.dstIp.toNat_lt
  exact ⟨UInt32.toNat_inj.mp (by omega), UInt32.toNat_inj.mp (by omega)⟩

theorem FlowKey.ports_inj {k k' : FlowKey} (h : k.ports = k'.ports) :
    k.srcPort = k'.srcPort ∧ k.dstPort = k'.dstPort ∧ k.protocol = k'.protocol := by
  have hval := congrArg UInt64.toNat h
  rw [k.toNat_ports, k'.toNat_ports] at hval
  have hdst := k.dstPort.toNat_lt
  have hdst' := k'.dstPort.toNat_lt
  have hproto := k.protocol.toNat_lt
  have hproto' := k'.protocol.toNat_lt
  exact ⟨UInt16.toNat_inj.mp (by omega), UInt16.toNat_inj.mp (by omega),
    UInt8.toNat_inj.mp (by omega)⟩

theorem flowHash_addrs {k k' : FlowKey} {salt : UInt64} (hports : k.ports = k'.ports)
    (h : flowHash k salt = flowHash k' salt) : k.addrs = k'.addrs := by
  rw [flowHash_eq, flowHash_eq, hports] at h
  have hmix := mix64_injective h
  rw [UInt64.xor_left_inj, UInt64.xor_left_inj] at hmix
  exact (UInt64.xor_left_inj _).mp (mix64_injective hmix)

theorem flowHash_ports {k k' : FlowKey} {salt : UInt64} (haddrs : k.addrs = k'.addrs)
    (h : flowHash k salt = flowHash k' salt) : k.ports = k'.ports := by
  rw [flowHash_eq, flowHash_eq, haddrs] at h
  have hmix := mix64_injective h
  rw [UInt64.xor_left_inj, UInt64.xor_right_inj] at hmix
  exact hmix

theorem flowHash_salt {k : FlowKey} {salt salt' : UInt64}
    (h : flowHash k salt = flowHash k salt') : salt = salt' := by
  rw [flowHash_eq, flowHash_eq] at h
  exact (UInt64.xor_right_inj _).mp (mix64_injective h)

theorem switchSalt_injective (seed : UInt64) : Function.Injective (switchSalt · seed) := by
  intro node node' h
  have hword := (UInt64.xor_right_inj _).mp (mix64_injective h)
  have hval := congrArg UInt64.toNat hword
  have hpack : ∀ n : UInt32, ((n.toUInt64 <<< 1) ||| 1).toNat = n.toNat * 2 ^ 1 + 1 := by
    intro n
    have hn := n.toNat_lt
    exact Words.toNat_pack (by decide) (by simp; omega) (by decide)
  rw [hpack, hpack] at hval
  exact UInt32.toNat_inj.mp (by omega)

/-- The hash separates the address pairs behind one set of ports, the ports and
protocols behind one address pair, the salts, and the switches of a run. -/
theorem ecmp_hash_lossless :
    Function.Bijective mix64 ∧
    (∀ (salt : UInt64) (k k' : FlowKey), k.srcPort = k'.srcPort → k.dstPort = k'.dstPort →
      k.protocol = k'.protocol → ¬ (k.srcIp = k'.srcIp ∧ k.dstIp = k'.dstIp) →
      flowHash k salt ≠ flowHash k' salt) ∧
    (∀ (salt : UInt64) (k k' : FlowKey), k.srcIp = k'.srcIp → k.dstIp = k'.dstIp →
      (k.srcPort ≠ k'.srcPort ∨ k.dstPort ≠ k'.dstPort ∨ k.protocol ≠ k'.protocol) →
      flowHash k salt ≠ flowHash k' salt) ∧
    (∀ (k : FlowKey) (salt salt' : UInt64), salt ≠ salt' → flowHash k salt ≠ flowHash k salt') ∧
    (∀ (seed : UInt64) (node node' : UInt32), node ≠ node' →
      switchSalt node seed ≠ switchSalt node' seed ∧
        ∀ k, flowHash k (switchSalt node seed) ≠ flowHash k (switchSalt node' seed)) := by
  refine ⟨mix64_bijective, ?_, ?_, ?_, ?_⟩
  · intro salt k k' hsrc hdst hproto hne heq
    have hports : k.ports = k'.ports := by
      unfold FlowKey.ports
      rw [hsrc, hdst, hproto]
    exact hne (FlowKey.addrs_inj (flowHash_addrs hports heq))
  · intro salt k k' hsrc hdst hne heq
    have haddrs : k.addrs = k'.addrs := by
      unfold FlowKey.addrs
      rw [hsrc, hdst]
    obtain ⟨h1, h2, h3⟩ := FlowKey.ports_inj (flowHash_ports haddrs heq)
    rcases hne with h | h | h
    · exact h h1
    · exact h h2
    · exact h h3
  · intro k salt salt' hne heq
    exact hne (flowHash_salt heq)
  · intro seed node node' hne
    have hsalt : switchSalt node seed ≠ switchSalt node' seed :=
      fun heq => hne (switchSalt_injective seed heq)
    exact ⟨hsalt, fun k heq => hsalt (flowHash_salt heq)⟩

/-- Two switches hash one flow differently. -/
theorem ecmp_hash_lossless_pair :
    flowHash {} (switchSalt 0 42) ≠ flowHash {} (switchSalt 1 42) :=
  (ecmp_hash_lossless.2.2.2.2 42 0 1 (by decide)).2 {}

/-! ## Every candidate gets its share -/

/-- The top half of a hash. -/
def topHalf (h : UInt64) : Nat := (h >>> 32).toNat

theorem topHalf_eq (h : UInt64) : topHalf h = h.toNat / 2 ^ 32 := by
  unfold topHalf
  rw [UInt64.toNat_shiftRight]
  exact Nat.shiftRight_eq_div_pow _ _

theorem topHalf_lt (h : UInt64) : topHalf h < 2 ^ 32 := by
  have := h.toNat_lt
  rw [topHalf_eq]
  omega

theorem topHalf_mul_lt (h : UInt64) {n : Nat} (hn : n < 2 ^ 32) : topHalf h * n < 2 ^ 64 := by
  calc topHalf h * n < 2 ^ 32 * 2 ^ 32 := Nat.mul_lt_mul'' (topHalf_lt h) hn
    _ = 2 ^ 64 := by decide

theorem exists_topHalf {t : Nat} (ht : t < 2 ^ 32) : ∃ h, topHalf h = t := by
  refine ⟨UInt64.ofNat (t * 2 ^ 32), ?_⟩
  rw [topHalf_eq, UInt64.toNat_ofNat', Nat.mod_eq_of_lt (by omega)]
  omega

theorem hashToIndex_eq (h : UInt64) {n : Nat} (hn : n < 2 ^ 32) :
    (hashToIndex h n).toNat = topHalf h * n / 2 ^ 32 := by
  have hmul := topHalf_mul_lt h hn
  have hprod : ((h >>> 32) * UInt64.ofNat n).toNat = topHalf h * n := by
    rw [UInt64.toNat_mul, UInt64.toNat_ofNat', Nat.mod_eq_of_lt (show n < 2 ^ 64 by omega)]
    exact Nat.mod_eq_of_lt hmul
  unfold hashToIndex
  rw [UInt64.toNat_toUInt32, UInt64.toNat_shiftRight, hprod]
  show ((topHalf h * n) >>> 32) % 2 ^ 32 = _
  rw [Nat.shiftRight_eq_div_pow, Nat.mod_eq_of_lt (by omega)]

/-- The top halves that select an index. -/
def topHalvesOf (n i : Nat) : Set Nat := {t | ∃ h, topHalf h = t ∧ (hashToIndex h n).toNat = i}

theorem topHalvesOf_eq {n i : Nat} (hpos : 0 < n) (hn : n < 2 ^ 32) (hi : i < n) :
    topHalvesOf n i = Buckets.bucket (2 ^ 32) n i := by
  ext t
  rw [Finset.mem_coe, Buckets.mem_bucket (by decide) hpos]
  constructor
  · rintro ⟨h, rfl, hindex⟩
    rw [← hindex, hashToIndex_eq h hn]
  · intro ht
    have hmem := (Buckets.mem_bucket (by decide) hpos).mpr ht
    obtain ⟨h, rfl⟩ := exists_topHalf (Buckets.lt_of_mem_bucket (by decide) hpos hi hmem)
    exact ⟨h, rfl, (hashToIndex_eq h hn).trans ht⟩

/-- The index is in range, without overflow of the product; it grows with the hash
and reaches every candidate; the top halves of the hashes are shared out evenly, up to
rounding; and so ECMP always selects a candidate. -/
theorem hash_to_index_balanced (n : Nat) (hpos : 0 < n) (hn : n ≤ 2 ^ 32 - 1) :
    (∀ h, (hashToIndex h n).toNat < n ∧ (h >>> 32).toNat * n < 2 ^ 64) ∧
    (∀ h h' : UInt64, h ≤ h' → hashToIndex h n ≤ hashToIndex h' n) ∧
    (∀ i, i < n → ∃ h, (hashToIndex h n).toNat = i) ∧
    (∀ h h', topHalf h = topHalf h' → hashToIndex h n = hashToIndex h' n) ∧
    (∀ i, i < n → ((topHalvesOf n i).ncard = 2 ^ 32 / n ∨
      (topHalvesOf n i).ncard = (2 ^ 32 + (n - 1)) / n) ∧
      ∀ j, j < n → (topHalvesOf n i).ncard ≤ (topHalvesOf n j).ncard + 1) ∧
    (∀ seed call at' key now cand, cand.length = n →
      (EcmpPolicy seed).select call at' key cand now ∈ cand) := by
  have hsmall : n < 2 ^ 32 := by omega
  have hcard : ∀ i, i < n → (topHalvesOf n i).ncard = (Buckets.bucket (2 ^ 32) n i).card := by
    intro i hi
    rw [topHalvesOf_eq hpos hsmall hi, Set.ncard_coe_finset]
  refine ⟨fun h => ⟨hashToIndex_lt h hpos, topHalf_mul_lt h hsmall⟩, fun h h' hle => ?_, fun i hi => ?_,
    fun h h' htop => ?_, fun i hi => ⟨?_, fun j hj => ?_⟩, ?_⟩
  · rw [UInt32.le_iff_toNat_le, hashToIndex_eq h hsmall, hashToIndex_eq h' hsmall, topHalf_eq,
      topHalf_eq]
    have hnat := UInt64.le_iff_toNat_le.mp hle
    exact Nat.div_le_div_right (Nat.mul_le_mul_right _ (Nat.div_le_div_right hnat))
  · obtain ⟨t, ht⟩ := Buckets.bucket_nonempty hpos hsmall.le i
    rw [← Finset.mem_coe, ← topHalvesOf_eq hpos hsmall hi] at ht
    obtain ⟨h, -, hindex⟩ := ht
    exact ⟨h, hindex⟩
  · refine UInt32.toNat_inj.mp ?_
    rw [hashToIndex_eq h hsmall, hashToIndex_eq h' hsmall, htop]
  · rw [hcard i hi]
    exact Buckets.card_bucket hpos i
  · rw [hcard i hi, hcard j hj]
    exact Buckets.card_bucket_le_succ hpos i j
  · intro seed call at' key now cand hlen
    refine ecmp_member seed call at' key cand now ?_
    rintro rfl
    exact hpos.ne hlen

/-- Three candidates, the least fan-out that does not divide `2^32`. -/
theorem hash_to_index_balanced_three :
    (topHalvesOf 3 0).ncard = 2 ^ 32 / 3 ∨ (topHalvesOf 3 0).ncard = (2 ^ 32 + (3 - 1)) / 3 :=
  ((hash_to_index_balanced 3 (by decide) (by decide)).2.2.2.2.1 0 (by decide)).1

end FabricSim
