/-
Airoha.Qdma.QosRuns — sequences of QoS sets on both engines.

A history is a list of valid sets, the newest first, run from engines whose
registers hold anything and a cleared `TXQ_DIS_CFG_VALUE`. Two things are
asked of it: a get returns what the last set on the same engine and channel
asked for, and no set changes what is closed elsewhere.

Since `TXQ_DIS_CFG_VALUE` is one array for both engines, what it holds for a
channel is what the last set on that channel asked for, whichever engine it
was on (`noted_run`). `Guard` says when that is not seen, and
`holds_iff_guarded` that nothing else goes wrong.
-/
import Airoha.Qdma.Qos

namespace Airoha.Qdma

open Airoha.Lib

/-! ## Histories -/

/-- A valid call of `qdma_api_set_tx_qos_upstream`. -/
structure SetCall where
  mainType : Main
  cfg : TxQosScheduler
  valid : cfg.Valid

/-- `glb_eth->qdma` as found, and `TXQ_DIS_CFG_VALUE` as the C file initialises it. -/
def Sys.fresh (qdma : Main → Engine) : Sys := { qdma, txqDisCfgValue := fun _ => 0#32 }

/-- The state after the calls, the newest first. -/
def run (qdma : Main → Engine) : List SetCall → Sys
  | [] => Sys.fresh qdma
  | call :: calls => (qdmaSetTxQosUpstream call.mainType call.cfg (run qdma calls)).1

/-- What the last set on engine `m` and channel `c` asked for. -/
def lastOn (m : Main) (c : Nat) : List SetCall → Option TxQosScheduler
  | [] => none
  | call :: calls =>
      if m = call.mainType ∧ c = call.cfg.channel then some call.cfg else lastOn m c calls

/-- What the last set on channel `c`, on either engine, asked for. -/
def lastOnEither (c : Nat) : List SetCall → Option TxQosScheduler
  | [] => none
  | call :: calls => if c = call.cfg.channel then some call.cfg else lastOnEither c calls

/-- What the last set on this engine and channel closed; before any, what the engine had closed. -/
def lastCloses (qdma : Main → Engine) (calls : List SetCall) (m : Main) (c q : Nat) : Bool :=
  match lastOn m c calls with
  | some cfg => cfg.closes q
  | none => (Sys.fresh qdma).closed m c q

/-- What the last set on this channel closed, on either engine. -/
def lastClosesEither (calls : List SetCall) (c q : Nat) : Bool :=
  match lastOnEither c calls with
  | some cfg => cfg.closes q
  | none => false

/-! ## What is asked of a history -/

/-- A get on an engine and channel returns what the last set there asked for. -/
def RoundTrip (s : Sys) (calls : List SetCall) : Prop :=
  ∀ m ask cfg, lastOn m ask.channel calls = some cfg →
    (qdmaGetTxQosUpstream m ask s).2.2 = 0 ∧
      (qdmaGetTxQosUpstream m ask s).2.1.qosType = cfg.qosType ∧
      ∀ i < weightNum cfg.qosType, (qdmaGetTxQosUpstream m ask s).2.1.weight i = cfg.weight i

/-- The call changes nothing that is closed on the other engine or on another channel. -/
def Isolated (s s' : Sys) (call : SetCall) : Prop :=
  ∀ m c q, c < 32 → q < 8 → ¬ (m = call.mainType ∧ c = call.cfg.channel) →
    s'.closed m c q = s.closed m c q

/-- Both, after every call of the history. -/
def Holds (qdma : Main → Engine) : List SetCall → Prop
  | [] => True
  | call :: calls => Holds qdma calls ∧
      RoundTrip (run qdma (call :: calls)) (call :: calls) ∧
      Isolated (run qdma calls) (run qdma (call :: calls)) call

/-- What one set has to keep to. The other channels of its word were last set alike on both
engines, and a set of the other engine on the same channel agrees on its queues of weight
zero and one. -/
structure Guard (qdma : Main → Engine) (calls : List SetCall) (call : SetCall) : Prop where
  word : ∀ c q, c < 32 → q < 8 → c / 4 = call.cfg.channel / 4 → c ≠ call.cfg.channel →
    lastClosesEither calls c q = lastCloses qdma calls call.mainType c q
  channel : ∀ m cfg, m ≠ call.mainType → lastOn m call.cfg.channel calls = some cfg →
    ∀ i < weightNum cfg.qosType,
      (cfg.weight i = 0 → call.cfg.closes i = true) ∧
      (cfg.weight i = 1 → call.cfg.closes i = false)

/-- Every set of the history keeps to `Guard`. -/
def Guarded (qdma : Main → Engine) : List SetCall → Prop
  | [] => True
  | call :: calls => Guarded qdma calls ∧ Guard qdma calls call

/-! ## The state in terms of the history -/

variable {qdma : Main → Engine}

theorem weightNum_le {t : Nat} (h : t < 8) : weightNum t ≤ 8 := by
  have hall : ∀ t < 8, weightNum t ≤ 8 := by decide
  exact hall t h

theorem run_cons (qdma : Main → Engine) (call : SetCall) (calls : List SetCall) :
    SetDone call.mainType call.cfg (run qdma calls) (run qdma (call :: calls)) := by
  obtain ⟨s', hset, hdone⟩ := set_spec call.valid call.mainType (run qdma calls)
  rw [run, hset]
  exact hdone

/-- The array holds what the last set on the channel closed, on either engine. -/
theorem noted_run {c q : Nat} (hc : c < 32) (hq : q < 8) : ∀ calls,
    (run qdma calls).noted c q = lastClosesEither calls c q := by
  intro calls
  induction calls with
  | nil => simp [run, Sys.fresh, Sys.noted, lastClosesEither, lastOnEither]
  | cons call calls ih =>
    rw [(run_cons qdma call calls).noted c q hc hq, ih]
    rcases eq_or_ne c call.cfg.channel with h | h
    · simp [lastClosesEither, lastOnEither, h]
    · simp [lastClosesEither, lastOnEither, h]

theorem lastOn_valid {m : Main} {c : Nat} {cfg : TxQosScheduler} : ∀ {calls},
    lastOn m c calls = some cfg → cfg.Valid ∧ cfg.channel = c := by
  intro calls
  induction calls with
  | nil =>
    intro h
    cases h
  | cons call calls ih =>
    intro h
    rw [lastOn] at h
    split at h
    · rename_i hcond
      cases h
      exact ⟨call.valid, hcond.2.symm⟩
    · exact ih h

/-- Mode and weights are those of the last set on the engine and channel. -/
theorem mode_run (qdma : Main → Engine) {m : Main} {c : Nat} {cfg : TxQosScheduler} (hc : c < 32) :
    ∀ calls,
    lastOn m c calls = some cfg →
      (qdmaGetPerChnlQosMode ((run qdma calls).qdma m) c).toNat = cfg.qosType ∧
      ∀ q < 8, ((run qdma calls).qdma m).wrr c q = BitVec.ofNat 32 (cfg.noZero.weight q) := by
  intro calls
  induction calls with
  | nil =>
    intro h
    cases h
  | cons call calls ih =>
    intro h
    have hdone := run_cons qdma call calls
    rw [lastOn] at h
    split at h
    · rename_i hcond
      obtain ⟨rfl, rfl⟩ := hcond
      cases h
      exact ⟨hdone.mode_self, hdone.wrr_self⟩
    · rename_i hcond
      obtain ⟨h1, h2⟩ := ih h
      refine ⟨?_, fun q hq => ?_⟩
      · rw [hdone.mode_of_ne m c hc hcond]
        exact h1
      · rw [hdone.wrr_of_ne m c q hcond]
        exact h2 q hq

/-- While no set reaches beyond its engine and channel, the engine closes what the last set
there asked for. -/
theorem closed_run : ∀ calls, Holds qdma calls → ∀ m c q, c < 32 → q < 8 →
    (run qdma calls).closed m c q = lastCloses qdma calls m c q := by
  intro calls
  induction calls with
  | nil =>
    intro _ m c q _ _
    rfl
  | cons call calls ih =>
    rintro ⟨hholds, -, hiso⟩ m c q hc hq
    have hdone := run_cons qdma call calls
    rcases Classical.em (m = call.mainType ∧ c = call.cfg.channel) with h | h
    · rw [hdone.closed m c q hc hq, if_pos ⟨h.1, by rw [h.2]⟩, hdone.noted c q hc hq, if_pos h.2]
      simp [lastCloses, lastOn, h]
    · rw [hiso m c q hc hq h, ih hholds m c q hc hq]
      simp [lastCloses, lastOn, h]

/-! ## One more call -/

/-- The weights of a get are right when the array agrees with the last set on zero and one. -/
def Agrees (calls : List SetCall) : Prop :=
  ∀ m c cfg, lastOn m c calls = some cfg → ∀ i < weightNum cfg.qosType,
    (cfg.weight i = 0 → lastClosesEither calls c i = true) ∧
    (cfg.weight i = 1 → lastClosesEither calls c i = false)

theorem roundTrip_iff (calls : List SetCall) :
    RoundTrip (run qdma calls) calls ↔ Agrees calls := by
  have hread : ∀ m (ask cfg : TxQosScheduler), lastOn m ask.channel calls = some cfg →
      (qdmaGetTxQosUpstream m ask (run qdma calls)).2.2 = 0 ∧
      (qdmaGetTxQosUpstream m ask (run qdma calls)).2.1.qosType = cfg.qosType ∧
      ∀ i < 8, (qdmaGetTxQosUpstream m ask (run qdma calls)).2.1.weight i =
        if cfg.noZero.weight i = 1 ∧ lastClosesEither calls ask.channel i = true then 0
        else cfg.noZero.weight i := by
    intro m ask cfg hlast
    obtain ⟨hv, hch⟩ := lastOn_valid hlast
    have hc : ask.channel < 32 := hch ▸ hv.channel_lt
    obtain ⟨hmode, hwrr⟩ := mode_run qdma hc calls hlast
    obtain ⟨s', out, hget, hqos, hweight⟩ := get_spec hc m (run qdma calls)
    rw [hget]
    refine ⟨rfl, hqos.trans hmode, fun i hi => ?_⟩
    have hlt := noZero_weight_lt hv hi
    have hval : (((run qdma calls).qdma m).wrr ask.channel i &&& mask 32 0 8).toNat =
        cfg.noZero.weight i := by
      rw [hwrr i hi, ofNat_and_mask (n := 8) hlt, BitVec.toNat_ofNat, Nat.mod_eq_of_lt (by omega)]
    rw [hweight i hi, hval, noted_run hc hi]
  have hzero : ∀ (cfg : TxQosScheduler) i, i < 8 →
      cfg.noZero.weight i = if cfg.weight i = 0 then 1 else cfg.weight i := by
    intro cfg i hi
    simp [TxQosScheduler.noZero, configQdmaQueue, hi]
  constructor
  · intro hround m c cfg hlast i hi
    obtain ⟨hv, hch⟩ := lastOn_valid hlast
    have hi8 : i < 8 := Nat.lt_of_lt_of_le hi (weightNum_le hv.qosType_lt)
    have hlast' : lastOn m cfg.channel calls = some cfg := hch ▸ hlast
    have hgot := (hround m cfg cfg hlast').2.2 i hi
    rw [(hread m cfg cfg hlast').2.2 i hi8, hzero cfg i hi8, hch] at hgot
    constructor
    · intro h0
      cases hb : lastClosesEither calls c i with
      | true => rfl
      | false => simp [h0, hb] at hgot
    · intro h1
      cases hb : lastClosesEither calls c i with
      | true => simp [h1, hb] at hgot
      | false => rfl
  · intro hagree m ask cfg hlast
    obtain ⟨hv, -⟩ := lastOn_valid hlast
    obtain ⟨h0, hqos, hweight⟩ := hread m ask cfg hlast
    refine ⟨h0, hqos, fun i hi => ?_⟩
    have hi8 : i < 8 := Nat.lt_of_lt_of_le hi (weightNum_le hv.qosType_lt)
    obtain ⟨hz, ho⟩ := hagree m ask.channel cfg hlast i hi
    rw [hweight i hi8, hzero cfg i hi8]
    rcases Nat.eq_zero_or_pos (cfg.weight i) with h | h
    · simp [h, hz h]
    · have hne : cfg.weight i ≠ 0 := Nat.pos_iff_ne_zero.mp h
      rcases eq_or_ne (cfg.weight i) 1 with h1 | h1
      · simp [h1, ho h1]
      · simp [hne, h1]

/-- A set agrees with itself, and a set of the other engine is the only one it can upset. -/
theorem agrees_cons (call : SetCall) (calls : List SetCall) (hagree : Agrees calls) :
    Agrees (call :: calls) ↔ ∀ m cfg, m ≠ call.mainType →
      lastOn m call.cfg.channel calls = some cfg → ∀ i < weightNum cfg.qosType,
        (cfg.weight i = 0 → call.cfg.closes i = true) ∧
        (cfg.weight i = 1 → call.cfg.closes i = false) := by
  have heither : ∀ i, lastClosesEither (call :: calls) call.cfg.channel i = call.cfg.closes i := by
    intro i
    simp [lastClosesEither, lastOnEither]
  constructor
  · intro h m cfg hm hlast i hi
    have hlast' : lastOn m call.cfg.channel (call :: calls) = some cfg := by
      rw [lastOn, if_neg fun hh => hm hh.1]
      exact hlast
    have := h m call.cfg.channel cfg hlast' i hi
    rwa [heither] at this
  · intro h m c cfg hlast i hi
    rcases eq_or_ne c call.cfg.channel with rfl | hc
    · rw [heither]
      rcases eq_or_ne m call.mainType with rfl | hm
      · rw [lastOn, if_pos ⟨rfl, rfl⟩] at hlast
        cases hlast
        refine ⟨fun h0 => ?_, fun h1 => ?_⟩
        · simp [TxQosScheduler.closes, hi, h0]
        · simp [TxQosScheduler.closes, h1]
      · rw [lastOn, if_neg fun hh => hm hh.1] at hlast
        exact h m cfg hm hlast i hi
    · rw [lastOn, if_neg fun hh => hc hh.2] at hlast
      have heq : lastClosesEither (call :: calls) c i = lastClosesEither calls c i := by
        simp [lastClosesEither, lastOnEither, hc]
      rw [heq]
      exact hagree m c cfg hlast i hi

/-- A set stays within its engine and channel when the array and the engine agree on the
other channels of the word. -/
theorem isolated_iff (call : SetCall) (calls : List SetCall) (hholds : Holds qdma calls) :
    Isolated (run qdma calls) (run qdma (call :: calls)) call ↔
      ∀ c q, c < 32 → q < 8 → c / 4 = call.cfg.channel / 4 → c ≠ call.cfg.channel →
        lastClosesEither calls c q = lastCloses qdma calls call.mainType c q := by
  have hdone := run_cons qdma call calls
  constructor
  · intro hiso c q hc hq hword hne
    have h1 := hiso call.mainType c q hc hq fun h => hne h.2
    rwa [hdone.closed _ c q hc hq, if_pos ⟨rfl, hword⟩, hdone.noted c q hc hq, if_neg hne,
      noted_run hc hq, closed_run calls hholds _ c q hc hq] at h1
  · intro hword m c q hc hq hne
    rw [hdone.closed m c q hc hq]
    split
    · rename_i h
      obtain ⟨rfl, hw⟩ := h
      have hcne : c ≠ call.cfg.channel := fun heq => hne ⟨rfl, heq⟩
      rw [hdone.noted c q hc hq, if_neg hcne, noted_run hc hq, hword c q hc hq hw hcne,
        closed_run calls hholds _ c q hc hq]
    · rfl

theorem agrees_of_holds : ∀ calls, Holds qdma calls → Agrees calls := by
  intro calls
  cases calls with
  | nil =>
    intro _ m c cfg h
    cases h
  | cons call calls =>
    rintro ⟨-, hround, -⟩
    exact (roundTrip_iff _).mp hround

/-! ## The result -/

/-- The QoS calls keep the two engines and all channels apart exactly in the guarded
histories. -/
theorem holds_iff_guarded (qdma : Main → Engine) (calls : List SetCall) :
    Holds qdma calls ↔ Guarded qdma calls := by
  induction calls with
  | nil => exact Iff.rfl
  | cons call calls ih =>
    rw [Holds, Guarded, ← ih]
    constructor
    · rintro ⟨hholds, hround, hiso⟩
      refine ⟨hholds, (isolated_iff call calls hholds).mp hiso, ?_⟩
      exact (agrees_cons call calls (agrees_of_holds calls hholds)).mp ((roundTrip_iff _).mp hround)
    · rintro ⟨hholds, hguard⟩
      refine ⟨hholds, (roundTrip_iff _).mpr ?_, (isolated_iff call calls hholds).mpr hguard.word⟩
      exact (agrees_cons call calls (agrees_of_holds calls hholds)).mpr hguard.channel

/-! ## Two engines, one channel -/

/-- All eight queues by WRR with the same weight. -/
def evenWeights (w : Nat) : TxQosScheduler := { channel := 0, qosType := 0, weight := fun _ => w }

theorem valid_evenWeights {w : Nat} (h : w ≤ 255) : (evenWeights w).Valid where
  channel_lt := Nat.zero_lt_succ _
  qosType_lt := Nat.zero_lt_succ _
  weight_le _ _ := h

/-- LAN closes the queues of channel 0, then WAN opens its own. -/
def closeThenOpen : List SetCall :=
  [⟨.wan, evenWeights 5, valid_evenWeights (by decide)⟩,
    ⟨.lan, evenWeights 0, valid_evenWeights (by decide)⟩]

/-- After the WAN set the LAN get reports weight 1 where 0 was asked for. -/
theorem not_holds_closeThenOpen :
    ¬ Holds (fun _ => ⟨fun _ => 0#32, fun _ _ => 0#32⟩) closeThenOpen := by
  rintro ⟨-, hround, -⟩
  have h := (hround .lan (evenWeights 0) (evenWeights 0) rfl).2.2 0 (by decide)
  revert h
  decide

end Airoha.Qdma
