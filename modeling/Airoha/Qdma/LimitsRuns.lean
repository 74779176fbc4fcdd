/-
Airoha.Qdma.LimitsRuns — the rate limits that are asked for and those in force.

A run is any list of `set` writes. `Asked` is what they ask for, `gemLimit` and
`lanLimit` what a frame meets: the meter its lookup returns, where that is
enabled. The LAN side keeps a meter and a flag for each name and direction.
The GEM side uses meter 32 for every port and one flag for both directions,
and a name that is not in `dev_meter_map` is taken for the first one:
`runFaithful_iff` says which writes do no harm.
-/
import Airoha.Qdma.Limits

namespace Airoha.Qdma

open Airoha.Lib

/-! ## §1 What is asked for -/

/-- A `set` write with the arguments it parses. -/
inductive LimitSet where
  | gemport (dir gemportIdx : Nat) (value : BitVec 32)
  | lan (dir : Nat) (itfName : String) (value : BitVec 32)

/-- Runs one write; nobody looks at its result. -/
def LimitSet.exec (rounds count : Nat) : LimitSet → RateDrv PUnit
  | .gemport dir gemportIdx value => do
      let _ ← airohaGemportRatelimitValueWrite rounds count .set dir gemportIdx value
  | .lan dir itfName value => do
      let _ ← airohaLanRatelimitValueWrite rounds count .set dir itfName value

/-- The limits by GEM port and by interface, and direction. -/
structure Asked where
  gem : Nat → Nat → Option (BitVec 32)
  lan : String → Nat → Option (BitVec 32)

def Asked.nothing : Asked := ⟨fun _ _ => none, fun _ _ => none⟩

/-- No limit where the value is 0. -/
def limitOf (value : BitVec 32) : Option (BitVec 32) := if value = 0#32 then none else some value

/-- The limits after a write. One with a direction or a port that is out of range names nothing. -/
def LimitSet.ask (a : Asked) : LimitSet → Asked
  | .gemport dir g value =>
      if dir ≤ 1 ∧ g ≤ airohaMaxIdxForGemportRatelimit then
        { a with gem := Function.update a.gem g (Function.update (a.gem g) dir (limitOf value)) }
      else a
  | .lan dir x value =>
      if dir < 2 then
        { a with lan := Function.update a.lan x (Function.update (a.lan x) dir (limitOf value)) }
      else a

/-! ## §2 What is in force -/

/-- The limit a frame of a GEM port meets in direction `d`. -/
def gemLimit (s : RateSys) (d : Nat) (f : GemFrame) : Option (BitVec 32 × BitVec 32) :=
  let meterIdx := getMeterIdxByGemport true s f
  if meterIdx = 0x7F then none else meterLimit (s.qdma d) 0 meterIdx

/-- The limit a frame of an interface meets in its direction. -/
def lanLimit (s : RateSys) (f : LanFrame) : Option (BitVec 32 × BitVec 32) :=
  let meterIdx := getMeterIdxByLan true s f
  if meterIdx = 0x1F then none else meterLimit (s.qdma (dirOf f)) 1 meterIdx

/-- The limit in force is the one asked for: a byte meter in fast ticks with the word of the
value. -/
def InForce (unit : Option Nat) (limit : Option (BitVec 32 × BitVec 32)) : Option (BitVec 32) → Prop
  | none => limit = none
  | some value => ∃ misc word, limit = some (misc, word) ∧ misc.getLsbD 0 = false ∧
      misc.getLsbD 1 = false ∧ rateWord unit value = some word

/-- Every frame of a GEM port or of an interface of the map meets the limit asked for. -/
structure LimitsAgree (s : RateSys) (a : Asked) : Prop where
  gem : ∀ f d, gemportOf f ≤ airohaMaxIdxForGemportRatelimit → d < 2 →
    InForce (byteUnit (s.qdma d)) (gemLimit s d f) (a.gem (gemportOf f) d)
  lan : ∀ f x, lanDevOf f = some x → x ∈ devMeterMap.map Prod.fst →
    InForce (byteUnit (s.qdma (dirOf f))) (lanLimit s f) (a.lan x (dirOf f))

/-- No frame's limit has changed. -/
structure SameLimits (s s' : RateSys) : Prop where
  gem : ∀ f d, gemportOf f ≤ airohaMaxIdxForGemportRatelimit → d < 2 →
    gemLimit s' d f = gemLimit s d f
  lan : ∀ f x, lanDevOf f = some x → x ∈ devMeterMap.map Prod.fst → lanLimit s' f = lanLimit s f

/-- The write names an interface that is not in the map. -/
def LimitSet.Unknown : LimitSet → Prop
  | .gemport _ _ _ => False
  | .lan _ x _ => x ∉ devMeterMap.map Prod.fst

/-- In every state of the run the limits agree, and writes to unknown names change none. -/
def RunFaithful (rounds count : Nat) : List LimitSet → RateSys → Asked → Prop
  | [], s, a => LimitsAgree s a
  | call :: calls, s, a => LimitsAgree s a ∧ Ends (call.exec rounds count) s fun _ s' =>
      (call.Unknown → SameLimits s s') ∧ RunFaithful rounds count calls s' (call.ask a)

/-! ## §3 Which writes do no harm -/

/-- The limit behind the flag of GEM port 0. -/
def gemZero (s : RateSys) (d : Nat) : Option (BitVec 32 × BitVec 32) :=
  if s.gemportRatelimitEnable 0 = 0 then none else meterLimit (s.qdma d) 0 airohaNumRxRing

/-- The limit behind the flag of a position in the map. -/
def lanAt (s : RateSys) (i d : Nat) : Option (BitVec 32 × BitVec 32) :=
  if s.lanRatelimitEnable d i = 1 then meterLimit (s.qdma d) 1 i else none

/-- Whether a write keeps the limits right. A nonzero value needs a word on that engine. On the
GEM side it has to be for port 0, with the flag already set or the other engine's meter disabled;
a zero needs port 0 to be without limit in the directions it does not name. A zero for an unknown
name needs the first interface to be without one; another value has to be the one that interface
has, or to be refused without enabling its meter. -/
def LimitSet.Right (s : RateSys) : LimitSet → Prop
  | .gemport dir g value => dir ≤ 1 → g ≤ airohaMaxIdxForGemportRatelimit →
      if value = 0#32 then ∀ d < 2, (g = 0 ∧ d = dir) ∨ gemZero s d = none
      else g = 0 ∧ (rateWord (byteUnit (s.qdma dir)) value).isSome ∧
        ∀ d < 2, d ≠ dir → s.gemportRatelimitEnable 0 = 0 →
          meterLimit (s.qdma d) 0 airohaNumRxRing = none
  | .lan dir x value => dir < 2 →
      if x ∈ devMeterMap.map Prod.fst then
        value = 0#32 ∨ (rateWord (byteUnit (s.qdma dir)) value).isSome
      else if value = 0#32 then lanAt s 0 dir = none
      else
        match rateWord (byteUnit (s.qdma dir)) value with
        | some word => ∃ misc, lanAt s 0 dir = some (misc, word)
        | none => s.lanRatelimitEnable dir 0 = 1 → meterLimit (s.qdma dir) 1 0 ≠ none

/-- Every write of the run does. -/
def RunRight (rounds count : Nat) : List LimitSet → RateSys → Prop
  | [], _ => True
  | call :: calls, s => call.Right s ∧ Ends (call.exec rounds count) s fun _ s' =>
      RunRight rounds count calls s'

/-! ## §4 Frames -/

/-- What the code keeps: rate-limit mode, and no flag of another GEM port. -/
structure Kept (s : RateSys) : Prop where
  mode : ∀ d < 2, RatelimitMode (s.qdma d)
  flags : ∀ g ≠ 0, s.gemportRatelimitEnable g = 0

theorem gemLimit_eq {s : RateSys} (hs : Kept s) (d : Nat) {f : GemFrame}
    (hf : gemportOf f ≤ airohaMaxIdxForGemportRatelimit) :
    gemLimit s d f = if gemportOf f = 0 then gemZero s d else none := by
  have hle : ¬ airohaMaxIdxForGemportRatelimit < gemportOf f := Nat.not_lt.mpr hf
  by_cases h0 : gemportOf f = 0
  · rw [if_pos h0]
    by_cases hflag : s.gemportRatelimitEnable 0 = 0
    · simp [gemLimit, getMeterIdxByGemport, gemZero, h0, hflag]
    · simp [gemLimit, getMeterIdxByGemport, gemZero, h0, hflag, airohaNumRxRing,
        airohaMaxIdxForGemportRatelimit]
  · simp [gemLimit, getMeterIdxByGemport, h0, hle, hs.flags _ h0]

/-- The lookup of a name of the map asks the flag of its own meter. -/
theorem getMeterIdxByLan_map {s : RateSys} {f : LanFrame} {row : String × Nat}
    (hrow : row ∈ devMeterMap) (hdev : lanDevOf f = some row.1) :
    getMeterIdxByLan true s f =
      if s.lanRatelimitEnable (dirOf f) row.2 = 1 then row.2 else 0x1F := by
  by_cases hflag : s.lanRatelimitEnable (dirOf f) row.2 = 1
  · rw [if_pos hflag]
    simp only [devMeterMap, List.mem_cons, List.not_mem_nil, or_false] at hrow
    rcases hrow with rfl | rfl | rfl | rfl | rfl | rfl | rfl | rfl <;>
      simp [getMeterIdxByLan, hdev, devMeterMap, hflag]
  · rw [if_neg hflag]
    simp only [devMeterMap, List.mem_cons, List.not_mem_nil, or_false] at hrow
    rcases hrow with rfl | rfl | rfl | rfl | rfl | rfl | rfl | rfl <;>
      simp [getMeterIdxByLan, hdev, devMeterMap, hflag]

theorem meter_lt_of_mem {row : String × Nat} (hrow : row ∈ devMeterMap) : row.2 < 8 := by
  revert row
  decide

theorem lanLimit_eq {s : RateSys} {f : LanFrame} {row : String × Nat} (hrow : row ∈ devMeterMap)
    (hdev : lanDevOf f = some row.1) : lanLimit s f = lanAt s row.2 (dirOf f) := by
  have hlt := meter_lt_of_mem hrow
  rw [lanLimit, getMeterIdxByLan_map hrow hdev, lanAt]
  by_cases hflag : s.lanRatelimitEnable (dirOf f) row.2 = 1
  · have hne : ¬ row.2 = 0x1F := by omega
    simp [hflag, hne]
  · simp [hflag]

theorem inForce_none_left {u : Option Nat} {v : Option (BitVec 32)} :
    InForce u none v ↔ v = none := by
  cases v <;> simp [InForce]

/-- A limit is asked for exactly when there is one. -/
theorem InForce.none_iff {u : Option Nat} {limit : Option (BitVec 32 × BitVec 32)}
    {v : Option (BitVec 32)} (h : InForce u limit v) : limit = none ↔ v = none := by
  cases v with
  | none => exact iff_of_true h rfl
  | some value =>
    obtain ⟨misc, word, rfl, -⟩ := h
    simp

/-- A frame of a GEM port. -/
def gemFrame (g : Nat) : GemFrame := ⟨.gdm2, BitVec.ofNat 8 g, 0#32⟩

/-- A frame of an interface in a direction. -/
def lanFrame (x : String) (d : Nat) : LanFrame := ⟨.gdm3, none, none, some x, some d⟩

theorem gemportOf_gemFrame {g : Nat} (hg : g ≤ airohaMaxIdxForGemportRatelimit) :
    gemportOf (gemFrame g) = g := by
  have hg' : g ≤ 31 := hg
  have hlt : g < 256 := by omega
  simp [gemportOf, gemFrame, hlt]

theorem dirOf_lt (f : LanFrame) : dirOf f < 2 := by
  unfold dirOf
  grind

theorem dirOf_lanFrame (x : String) {d : Nat} (hd : d < 2) : dirOf (lanFrame x d) = d := by
  have hd' : ¬ 2 ≤ d := by omega
  simp [dirOf, lanFrame, hd']

/-- Every GEM port, interface and direction has frames, so the limits are a matter of port 0 and of
the map. -/
theorem limitsAgree_iff {s : RateSys} (hs : Kept s) {a : Asked} :
    LimitsAgree s a ↔ (∀ d < 2, InForce (byteUnit (s.qdma d)) (gemZero s d) (a.gem 0 d)) ∧
      (∀ g, g ≠ 0 → g ≤ airohaMaxIdxForGemportRatelimit → ∀ d < 2, a.gem g d = none) ∧
      ∀ row ∈ devMeterMap, ∀ d < 2,
        InForce (byteUnit (s.qdma d)) (lanAt s row.2 d) (a.lan row.1 d) := by
  constructor
  · intro h
    have hgem : ∀ g ≤ airohaMaxIdxForGemportRatelimit, ∀ d < 2,
        InForce (byteUnit (s.qdma d)) (if g = 0 then gemZero s d else none) (a.gem g d) := by
      intro g hg d hd
      have hf := gemportOf_gemFrame hg
      have hfle : gemportOf (gemFrame g) ≤ airohaMaxIdxForGemportRatelimit := by rwa [hf]
      have := h.gem (gemFrame g) d hfle hd
      rwa [gemLimit_eq hs d hfle, hf] at this
    refine ⟨fun d hd => by simpa using hgem 0 (Nat.zero_le _) d hd, fun g h0 hg d hd => ?_,
      fun row hrow d hd => ?_⟩
    · have := hgem g hg d hd
      rwa [if_neg h0, inForce_none_left] at this
    · have hdir := dirOf_lanFrame row.1 hd
      have := h.lan (lanFrame row.1 d) row.1 rfl (List.mem_map_of_mem hrow)
      rwa [lanLimit_eq hrow rfl, hdir] at this
  · rintro ⟨h0, hother, hlan⟩
    refine ⟨fun f d hf hd => ?_, fun f x hdev hx => ?_⟩
    · rw [gemLimit_eq hs d hf]
      by_cases hz : gemportOf f = 0
      · rw [if_pos hz, hz]
        exact h0 d hd
      · rw [if_neg hz, inForce_none_left]
        exact hother _ hz hf d hd
    · obtain ⟨row, hrow, rfl⟩ := List.mem_map.mp hx
      rw [lanLimit_eq hrow hdev]
      exact hlan row hrow _ (dirOf_lt f)

theorem sameLimits_iff {s s' : RateSys} (hs : Kept s) (hs' : Kept s') :
    SameLimits s s' ↔ (∀ d < 2, gemZero s' d = gemZero s d) ∧
      ∀ row ∈ devMeterMap, ∀ d < 2, lanAt s' row.2 d = lanAt s row.2 d := by
  constructor
  · refine fun h => ⟨fun d hd => ?_, fun row hrow d hd => ?_⟩
    · have hf := gemportOf_gemFrame (Nat.zero_le airohaMaxIdxForGemportRatelimit)
      have hfle : gemportOf (gemFrame 0) ≤ airohaMaxIdxForGemportRatelimit := by
        rw [hf]
        exact Nat.zero_le _
      have := h.gem (gemFrame 0) d hfle hd
      rwa [gemLimit_eq hs d hfle, gemLimit_eq hs' d hfle, hf, if_pos rfl, if_pos rfl] at this
    · have hdir := dirOf_lanFrame row.1 hd
      have := h.lan (lanFrame row.1 d) row.1 rfl (List.mem_map_of_mem hrow)
      rwa [lanLimit_eq hrow rfl, lanLimit_eq hrow rfl, hdir] at this
  · rintro ⟨hgem, hlan⟩
    refine ⟨fun f d hf hd => ?_, fun f x hdev hx => ?_⟩
    · rw [gemLimit_eq hs d hf, gemLimit_eq hs' d hf, hgem d hd]
    · obtain ⟨row, hrow, rfl⟩ := List.mem_map.mp hx
      rw [lanLimit_eq hrow hdev, lanLimit_eq hrow hdev]
      exact hlan row hrow _ (dirOf_lt f)

/-! ## §5 One write -/

section Meter

variable {q q' : MeterRegs} {group index : Nat} {value : BitVec 32}

theorem MeterSet.byteUnit (h : MeterSet q q' group index value) : byteUnit q' = byteUnit q := by
  rw [Qdma.byteUnit, h.cfg]
  rfl

theorem MeterSet.ratelimitMode (h : MeterSet q q' group index value) (hq : RatelimitMode q) :
    RatelimitMode q' := by
  rw [RatelimitMode, h.cfg]
  exact hq

/-- Another value enables it in byte mode and fast ticks, with the word where there is one. -/
theorem MeterSet.limit_value (h : MeterSet q q' group index value) (hv : value ≠ 0#32) :
    ∃ misc, meterLimit q' group index = some (misc, (rateWord (Qdma.byteUnit q) value).getD
        (q.para (trtcmTokenRate, group, index))) ∧
      misc.getLsbD 0 = false ∧ misc.getLsbD 1 = false ∧
      misc = cfgMisc (byteCfg index value) (q.para (trtcmMisc, group, index)) := by
  obtain ⟨h0, h1, h2⟩ := cfgMisc_bits (byteCfg index value) (q.para (trtcmMisc, group, index))
  refine ⟨_, ?_, h0, h1, rfl⟩
  rw [meterLimit, h.misc, h2, h.rate]
  simp [byteCfg, hv]

theorem MeterSet.limit_other (h : MeterSet q q' group index value) {g i : Nat}
    (hne : (g, i) ≠ (group, index)) : meterLimit q' g i = meterLimit q g i := by
  rw [meterLimit, meterLimit, h.others _ hne, h.others _ hne]

/-- After a value other than 0, the limit is that value if it has a word. -/
theorem MeterSet.inForce_iff (h : MeterSet q q' group index value) (hv : value ≠ 0#32) :
    InForce (Qdma.byteUnit q') (meterLimit q' group index) (some value) ↔
      (rateWord (Qdma.byteUnit q) value).isSome := by
  obtain ⟨misc, hlimit, h0, h1, -⟩ := h.limit_value hv
  rw [h.byteUnit, hlimit]
  constructor
  · rintro ⟨m, w, -, -, -, hw⟩
    rw [hw]
    rfl
  · intro hsome
    obtain ⟨w, hw⟩ := Option.isSome_iff_exists.mp hsome
    exact ⟨misc, w, by rw [hw]; rfl, h0, h1, hw⟩

end Meter

section Writes

variable {s : RateSys} {dir : Nat} {value : BitVec 32}

/-- The engines after a write to one of them. -/
def RateSys.withQdma (s : RateSys) (d : Nat) (q : MeterRegs) : RateSys :=
  { s with qdma := Function.update s.qdma d q }

theorem settable_gemport : Settable 0 airohaNumRxRing := by
  constructor <;> decide

theorem settable_lan {i : Nat} (hi : i < 8) : Settable 1 i := by
  have hall : ∀ i < 8, (1 <<< 8 ||| i) % 65536 = 1 <<< 8 ||| i ∧
      checkIndexValid false (1 <<< 8 ||| i) = true ∧ qdmaMeterGroup (1 <<< 8 ||| i) = 1 ∧
      qdmaMeterIdx (1 <<< 8 ||| i) = i := by decide
  obtain ⟨h1, h2, h3, h4⟩ := hall i hi
  exact ⟨h1, h2, h3, h4⟩

/-- What a `set` of a GEM port leaves. -/
def GemportWritten (s : RateSys) (dir : Nat) (value : BitVec 32) (s' : RateSys) : Prop :=
  ∃ q, MeterSet (s.qdma dir) q 0 airohaNumRxRing value ∧
    s' = gemFlags airohaNumRxRing value
      (if (rateWord (byteUnit (s.qdma dir)) value).isSome then 0 else eINVAL) (s.withQdma dir q)

theorem gemport_ends (hs : Kept s) (rounds count : Nat) (hdir : dir ≤ 1) {g : Nat}
    (hg : g ≤ airohaMaxIdxForGemportRatelimit) :
    Ends (airohaGemportRatelimitValueWrite (rounds + 1) count .set dir g value) s
      fun _ s' => GemportWritten s dir value s' := by
  unfold airohaGemportRatelimitValueWrite
  rw [if_neg (not_not.mpr ⟨hdir, hg⟩)]
  have hmode := hs.mode dir (Nat.lt_succ_of_le hdir)
  refine Ends.bind (setMeter_ends hmode settable_gemport rounds value) ?_
  rintro r _ ⟨rfl, q, hq, rfl⟩
  refine Ends.bind (P := fun _ s' => GemportWritten s dir value s') (Ends.modify ⟨q, hq, rfl⟩) ?_
  intro _ s' h
  refine Ends.ite (fun _ => ?_) fun _ => ?_
  · exact Ends.pure h
  · exact Ends.pure h

theorem devMeterIdx_lt (x : String) : devMeterIdx x < 8 := by
  unfold devMeterIdx
  split
  · rename_i row hrow
    exact meter_lt_of_mem (List.mem_of_find?_eq_some hrow)
  · decide

/-- What a `set` of an interface leaves. -/
def LanWritten (s : RateSys) (dir : Nat) (x : String) (value : BitVec 32) (s' : RateSys) : Prop :=
  ∃ q, MeterSet (s.qdma dir) q 1 (devMeterIdx x) value ∧
    s' = lanFlags dir (devMeterIdx x) value
      (if (rateWord (byteUnit (s.qdma dir)) value).isSome then 0 else eINVAL) (s.withQdma dir q)

theorem lan_ends (hs : Kept s) (rounds count : Nat) (hdir : dir < 2) (x : String) :
    Ends (airohaLanRatelimitValueWrite (rounds + 1) count .set dir x value) s
      fun _ s' => LanWritten s dir x value s' := by
  unfold airohaLanRatelimitValueWrite
  refine Ends.ite (fun h => absurd hdir (Nat.not_lt.mpr h)) fun _ => ?_
  refine Ends.bind
    (setMeter_ends (hs.mode dir hdir) (settable_lan (devMeterIdx_lt x)) rounds value) ?_
  rintro r _ ⟨rfl, q, hq, rfl⟩
  refine Ends.bind (P := fun _ s' => LanWritten s dir x value s') (Ends.modify ⟨q, hq, rfl⟩) ?_
  intro _ s' h
  refine Ends.ite (fun _ => ?_) fun _ => ?_
  · exact Ends.pure h
  · exact Ends.pure h

/-- The engines are in rate-limit mode after a write. -/
theorem mode_withQdma {q : MeterRegs} (hs : Kept s) (hq : RatelimitMode q) :
    ∀ d < 2, RatelimitMode ((s.withQdma dir q).qdma d) := by
  intro d hd
  by_cases h : d = dir
  · subst h
    simpa [RateSys.withQdma] using hq
  · simpa [RateSys.withQdma, h] using hs.mode d hd

@[simp] theorem gemFlags_qdma (m : Nat) (v : BitVec 32) (r : Int) (s : RateSys) :
    (gemFlags m v r s).qdma = s.qdma := by
  unfold gemFlags
  grind

@[simp] theorem gemFlags_lan (m : Nat) (v : BitVec 32) (r : Int) (s : RateSys) :
    (gemFlags m v r s).lanRatelimitEnable = s.lanRatelimitEnable := by
  unfold gemFlags
  grind

@[simp] theorem lanFlags_qdma (m : Nat) (v : BitVec 32) (r : Int) (s : RateSys) :
    (lanFlags dir m v r s).qdma = s.qdma := by
  unfold lanFlags
  grind

@[simp] theorem lanFlags_gem (m : Nat) (v : BitVec 32) (r : Int) (s : RateSys) :
    (lanFlags dir m v r s).gemportRatelimitEnable = s.gemportRatelimitEnable := by
  unfold lanFlags
  grind

/-- The flag of GEM port 0 after a write of any port. -/
theorem gemFlags_gem (v : BitVec 32) (r : Int) (s : RateSys) :
    (gemFlags airohaNumRxRing v r s).gemportRatelimitEnable =
      if v = 0#32 then Function.update s.gemportRatelimitEnable 0 0
      else if r = 0 then Function.update s.gemportRatelimitEnable 0 1
      else s.gemportRatelimitEnable := by
  unfold gemFlags
  by_cases hv : v = 0#32 <;> by_cases hr : r = 0 <;> simp [hv, hr]

theorem GemportWritten.kept {s' : RateSys} (h : GemportWritten s dir value s') (hs : Kept s)
    (hdir : dir ≤ 1) : Kept s' := by
  obtain ⟨q, hq, rfl⟩ := h
  refine ⟨?_, fun g hg => ?_⟩
  · rw [gemFlags_qdma]
    exact mode_withQdma hs (hq.ratelimitMode (hs.mode dir (Nat.lt_succ_of_le hdir)))
  · rw [gemFlags_gem]
    have hflag := hs.flags g hg
    split
    · simp [hg, RateSys.withQdma, hflag]
    · split
      · simp [hg, RateSys.withQdma, hflag]
      · exact hflag

theorem LanWritten.kept {s' : RateSys} {x : String} (h : LanWritten s dir x value s') (hs : Kept s)
    (hdir : dir < 2) : Kept s' := by
  obtain ⟨q, hq, rfl⟩ := h
  refine ⟨?_, fun g hg => ?_⟩
  · rw [lanFlags_qdma]
    exact mode_withQdma hs (hq.ratelimitMode (hs.mode dir hdir))
  · rw [lanFlags_gem]
    exact hs.flags g hg

end Writes

section GemPort

variable {s s' : RateSys} {a : Asked} {dir g : Nat} {value : BitVec 32}

/-- The engines of the state a write leaves. -/
theorem qdma_withQdma (s : RateSys) (dir : Nat) (q : MeterRegs) (d : Nat) :
    (s.withQdma dir q).qdma d = if d = dir then q else s.qdma d := by
  by_cases h : d = dir
  · subst h
    simp [RateSys.withQdma]
  · simp [RateSys.withQdma, h]

theorem GemportWritten.byteUnit (h : GemportWritten s dir value s') (d : Nat) :
    byteUnit (s'.qdma d) = byteUnit (s.qdma d) := by
  obtain ⟨q, hq, rfl⟩ := h
  rw [gemFlags_qdma, qdma_withQdma]
  split
  · rename_i hd
    rw [hq.byteUnit, hd]
  · rfl

/-- A write on the GEM side leaves the interfaces alone. -/
theorem GemportWritten.lanAt (h : GemportWritten s dir value s') (i d : Nat) :
    lanAt s' i d = lanAt s i d := by
  obtain ⟨q, hq, rfl⟩ := h
  have hlimit : meterLimit ((s.withQdma dir q).qdma d) 1 i = meterLimit (s.qdma d) 1 i := by
    rw [qdma_withQdma]
    split
    · rename_i hd
      rw [hq.limit_other (by simp), hd]
    · rfl
  rw [Qdma.lanAt, Qdma.lanAt, gemFlags_lan, gemFlags_qdma, hlimit]
  rfl

/-- A zero takes the limit of port 0 in both directions, -/
theorem GemportWritten.gemZero_zero (h : GemportWritten s dir 0#32 s') (d : Nat) :
    gemZero s' d = none := by
  obtain ⟨q, hq, rfl⟩ := h
  rw [gemZero, gemFlags_gem, if_pos rfl, Function.update_self, if_pos rfl]

/-- a value without a word leaves the flag, -/
theorem GemportWritten.gemZero_refused (h : GemportWritten s dir value s')
    (hword : ¬ (rateWord (Qdma.byteUnit (s.qdma dir)) value).isSome) :
    ¬ InForce (Qdma.byteUnit (s'.qdma dir)) (gemZero s' dir) (some value) := by
  rw [h.byteUnit]
  rintro ⟨misc, word, -, -, -, hw⟩
  rw [hw] at hword
  exact hword rfl

/-- and one with a word sets it, and the meter of its direction. -/
theorem GemportWritten.gemZero_value (h : GemportWritten s dir value s') (hv : value ≠ 0#32)
    (hword : (rateWord (Qdma.byteUnit (s.qdma dir)) value).isSome) :
    InForce (Qdma.byteUnit (s'.qdma dir)) (gemZero s' dir) (some value) ∧
      ∀ d, d ≠ dir → gemZero s' d = meterLimit (s.qdma d) 0 airohaNumRxRing := by
  obtain ⟨q, hq, rfl⟩ := h
  have hflag : (gemFlags airohaNumRxRing value
      (if (rateWord (Qdma.byteUnit (s.qdma dir)) value).isSome then 0 else eINVAL)
      (s.withQdma dir q)).gemportRatelimitEnable 0 ≠ 0 := by
    rw [gemFlags_gem, if_neg hv, if_pos hword, if_pos rfl, Function.update_self]
    decide
  refine ⟨?_, fun d hd => ?_⟩
  · rw [gemZero, if_neg hflag, gemFlags_qdma, qdma_withQdma, if_pos rfl]
    exact (hq.inForce_iff hv).mpr hword
  · rw [gemZero, if_neg hflag, gemFlags_qdma, qdma_withQdma, if_neg hd]

theorem ask_gem (hdir : dir ≤ 1) (hg : g ≤ airohaMaxIdxForGemportRatelimit) (g' d : Nat) :
    ((LimitSet.gemport dir g value).ask a).gem g' d =
      if g' = g ∧ d = dir then limitOf value else a.gem g' d := by
  rw [LimitSet.ask, if_pos ⟨hdir, hg⟩]
  by_cases h : g' = g
  · subst h
    by_cases h' : d = dir <;> simp [h']
  · simp [h]

theorem gemport_agree_iff (hs : Kept s) (ha : LimitsAgree s a) (hdir : dir ≤ 1)
    (hg : g ≤ airohaMaxIdxForGemportRatelimit) (h : GemportWritten s dir value s') :
    LimitsAgree s' ((LimitSet.gemport dir g value).ask a) ↔
      (LimitSet.gemport dir g value).Right s := by
  obtain ⟨h0, hother, hlan⟩ := (limitsAgree_iff hs).mp ha
  have hlan' : ∀ row ∈ devMeterMap, ∀ d < 2, InForce (byteUnit (s'.qdma d)) (lanAt s' row.2 d)
      (((LimitSet.gemport dir g value).ask a).lan row.1 d) := by
    intro row hrow d hd
    rw [h.byteUnit, h.lanAt, LimitSet.ask, if_pos ⟨hdir, hg⟩]
    exact hlan row hrow d hd
  rw [limitsAgree_iff (h.kept hs hdir)]
  simp only [ask_gem hdir hg]
  simp only [LimitSet.Right, hdir, hg, forall_const]
  by_cases hv : value = 0#32
  · subst hv
    rw [if_pos rfl]
    constructor
    · rintro ⟨hall, -, -⟩ d hd
      by_cases hnamed : g = 0 ∧ d = dir
      · exact Or.inl hnamed
      · have hd' := hall d hd
        rw [h.gemZero_zero, inForce_none_left, if_neg fun hc => hnamed ⟨hc.1.symm, hc.2⟩] at hd'
        exact Or.inr ((h0 d hd).none_iff.mpr hd')
    · intro hright
      refine ⟨fun d hd => ?_, fun g' hg0 hg' d hd => ?_, hlan'⟩
      · rw [h.gemZero_zero, inForce_none_left]
        split
        · rfl
        · rename_i hnamed
          refine (h0 d hd).none_iff.mp ((hright d hd).resolve_left fun hc =>
            hnamed ⟨hc.1.symm, hc.2⟩)
      · split
        · rfl
        · exact hother g' hg0 hg' d hd
  · have hlimit : limitOf value = some value := if_neg hv
    rw [if_neg hv, hlimit]
    by_cases hg0 : g = 0
    case neg =>
      refine iff_of_false (fun hall => ?_) fun hright => hg0 hright.1
      have := hall.2.1 g hg0 hg dir (Nat.lt_succ_of_le hdir)
      rw [if_pos ⟨rfl, rfl⟩] at this
      cases this
    case pos =>
      subst hg0
      by_cases hword : (rateWord (byteUnit (s.qdma dir)) value).isSome
      case neg =>
        refine iff_of_false (fun hall => ?_) fun hright => hword hright.2.1
        have := hall.1 dir (Nat.lt_succ_of_le hdir)
        rw [if_pos ⟨rfl, rfl⟩] at this
        exact h.gemZero_refused hword this
      case pos =>
        obtain ⟨hself, hsib⟩ := h.gemZero_value hv hword
        rw [and_iff_right rfl, and_iff_right hword]
        -- the other direction: its meter counts from now on
        have hsibling : ∀ d < 2, d ≠ dir →
            (InForce (byteUnit (s'.qdma d)) (gemZero s' d) (a.gem 0 d) ↔
              (s.gemportRatelimitEnable 0 = 0 →
                meterLimit (s.qdma d) 0 airohaNumRxRing = none)) := by
          intro d hd hne
          have hd0 := h0 d hd
          rw [hsib d hne, h.byteUnit]
          by_cases hflag : s.gemportRatelimitEnable 0 = 0
          · rw [gemZero, if_pos hflag, inForce_none_left] at hd0
            rw [hd0]
            simp [hflag, InForce]
          · rw [gemZero, if_neg hflag] at hd0
            exact iff_of_true hd0 fun hc => absurd hc hflag
        constructor
        · rintro ⟨hall, -, -⟩ d hd hne
          have := hall d hd
          rw [if_neg fun hc => hne hc.2] at this
          exact (hsibling d hd hne).mp this
        · intro hright
          refine ⟨fun d hd => ?_, fun g' hg0 hg' d hd => ?_, hlan'⟩
          · by_cases hne : d = dir
            · rw [if_pos ⟨rfl, hne⟩, hne]
              exact hself
            · rw [if_neg fun hc => hne hc.2]
              exact (hsibling d hd hne).mpr (hright d hd hne)
          · rw [if_neg fun hc => hg0 hc.1]
            exact hother g' hg0 hg' d hd

end GemPort

section Interface

variable {s s' : RateSys} {a : Asked} {dir : Nat} {x : String} {value : BitVec 32}

theorem devMeterIdx_map {row : String × Nat} (hrow : row ∈ devMeterMap) :
    devMeterIdx row.1 = row.2 := by
  simp only [devMeterMap, List.mem_cons, List.not_mem_nil, or_false] at hrow
  rcases hrow with rfl | rfl | rfl | rfl | rfl | rfl | rfl | rfl <;> simp [devMeterIdx, devMeterMap]

theorem devMeterIdx_unknown (hx : x ∉ devMeterMap.map Prod.fst) : devMeterIdx x = 0 := by
  have hnone : devMeterMap.find? (fun row => decide (x = row.1)) = none := by
    rw [List.find?_eq_none]
    intro row hrow h
    exact hx (List.mem_map.mpr ⟨row, hrow, (of_decide_eq_true h).symm⟩)
  rw [devMeterIdx, hnone]

/-- Different names have different meters. -/
theorem devMeterMap_inj {row row' : String × Nat} (hrow : row ∈ devMeterMap)
    (hrow' : row' ∈ devMeterMap) (h : row.2 = row'.2) : row.1 = row'.1 := by
  simp only [devMeterMap, List.mem_cons, List.not_mem_nil, or_false] at hrow hrow'
  rcases hrow with rfl | rfl | rfl | rfl | rfl | rfl | rfl | rfl <;>
    rcases hrow' with rfl | rfl | rfl | rfl | rfl | rfl | rfl | rfl <;> simp_all

theorem LanWritten.byteUnit (h : LanWritten s dir x value s') (d : Nat) :
    byteUnit (s'.qdma d) = byteUnit (s.qdma d) := by
  obtain ⟨q, hq, rfl⟩ := h
  rw [lanFlags_qdma, qdma_withQdma]
  split
  · rename_i hd
    rw [hq.byteUnit, hd]
  · rfl

/-- A write on the LAN side leaves the GEM ports alone. -/
theorem LanWritten.gemZero (h : LanWritten s dir x value s') (d : Nat) :
    gemZero s' d = gemZero s d := by
  obtain ⟨q, hq, rfl⟩ := h
  have hlimit : meterLimit ((s.withQdma dir q).qdma d) 0 airohaNumRxRing =
      meterLimit (s.qdma d) 0 airohaNumRxRing := by
    rw [qdma_withQdma]
    split
    · rename_i hd
      rw [hq.limit_other (by simp), hd]
    · rfl
  rw [Qdma.gemZero, Qdma.gemZero, lanFlags_gem, lanFlags_qdma, hlimit]
  rfl

/-- The flags after a write. -/
theorem lanFlags_lan (dir m : Nat) (v : BitVec 32) (r : Int) (s : RateSys) (d i : Nat) :
    (lanFlags dir m v r s).lanRatelimitEnable d i =
      if d = dir ∧ i = m then
        if v = 0#32 then 0 else if r = 0 then 1 else s.lanRatelimitEnable d i
      else s.lanRatelimitEnable d i := by
  unfold lanFlags
  by_cases hd : d = dir
  · subst hd
    by_cases hi : i = m <;> by_cases hv : v = 0#32 <;> by_cases hr : r = 0 <;> simp [hi, hv, hr]
  · by_cases hv : v = 0#32 <;> by_cases hr : r = 0 <;> simp [hd, hv, hr]

theorem lanFlags_self (dir m : Nat) (v : BitVec 32) (r : Int) (s : RateSys) :
    (lanFlags dir m v r s).lanRatelimitEnable dir m =
      if v = 0#32 then 0 else if r = 0 then 1 else s.lanRatelimitEnable dir m := by
  rw [lanFlags_lan]
  exact if_pos ⟨rfl, rfl⟩

/-- Other positions and the other direction keep their limits. -/
theorem LanWritten.lanAt_other (h : LanWritten s dir x value s') {i d : Nat}
    (hne : ¬ (d = dir ∧ i = devMeterIdx x)) : lanAt s' i d = lanAt s i d := by
  obtain ⟨q, hq, rfl⟩ := h
  have hlimit : meterLimit ((s.withQdma dir q).qdma d) 1 i = meterLimit (s.qdma d) 1 i := by
    rw [qdma_withQdma]
    split
    · rename_i hd
      rw [hq.limit_other fun hc => hne ⟨hd, (Prod.mk.inj hc).2⟩, hd]
    · rfl
  rw [lanAt, lanAt, lanFlags_lan, if_neg hne, lanFlags_qdma, hlimit]
  rfl

/-- The position of the name has the value: none for 0, else what the meter does, behind the flag
that is set only for a value with a word. -/
theorem LanWritten.lanAt_self (h : LanWritten s dir x value s') :
    lanAt s' (devMeterIdx x) dir =
      if value = 0#32 then none
      else if (rateWord (Qdma.byteUnit (s.qdma dir)) value).isSome ∨
          s.lanRatelimitEnable dir (devMeterIdx x) = 1 then
        meterLimit (s'.qdma dir) 1 (devMeterIdx x)
      else none := by
  obtain ⟨q, -, rfl⟩ := h
  have hold : (s.withQdma dir q).lanRatelimitEnable = s.lanRatelimitEnable := rfl
  rw [lanAt, lanFlags_self, lanFlags_qdma, hold]
  by_cases hv : value = 0#32
  · simp [hv]
  · by_cases hword : (rateWord (Qdma.byteUnit (s.qdma dir)) value).isSome
    · simp [hv, hword]
    · simp [hv, hword, eINVAL]

theorem LanWritten.meter (h : LanWritten s dir x value s') :
    MeterSet (s.qdma dir) (s'.qdma dir) 1 (devMeterIdx x) value := by
  obtain ⟨q, hq, rfl⟩ := h
  rw [lanFlags_qdma, qdma_withQdma, if_pos rfl]
  exact hq

theorem ask_lan (hdir : dir < 2) (x' : String) (d : Nat) :
    ((LimitSet.lan dir x value).ask a).lan x' d =
      if x' = x ∧ d = dir then limitOf value else a.lan x' d := by
  rw [LimitSet.ask, if_pos hdir]
  by_cases h : x' = x
  · subst h
    by_cases h' : d = dir <;> simp [h']
  · simp [h]

/-- The limits after a write of an interface are a matter of that interface. -/
theorem lan_agree_iff (hs : Kept s) (ha : LimitsAgree s a) (hdir : dir < 2)
    (hx : x ∈ devMeterMap.map Prod.fst) (h : LanWritten s dir x value s') :
    LimitsAgree s' ((LimitSet.lan dir x value).ask a) ↔ (LimitSet.lan dir x value).Right s := by
  obtain ⟨h0, hother, hlan⟩ := (limitsAgree_iff hs).mp ha
  obtain ⟨row, hrow, rfl⟩ := List.mem_map.mp hx
  have hidx := devMeterIdx_map hrow
  have hgem : ((LimitSet.lan dir row.1 value).ask a).gem = a.gem := by
    rw [LimitSet.ask, if_pos hdir]
  have hself : InForce (byteUnit (s'.qdma dir)) (lanAt s' row.2 dir) (limitOf value) ↔
      value = 0#32 ∨ (rateWord (byteUnit (s.qdma dir)) value).isSome := by
    rw [← hidx, h.lanAt_self]
    by_cases hv : value = 0#32
    · simp [hv, limitOf, InForce]
    · rw [if_neg hv, limitOf, if_neg hv, or_iff_right hv]
      by_cases hword : (rateWord (byteUnit (s.qdma dir)) value).isSome
      · rw [if_pos (Or.inl hword)]
        exact h.meter.inForce_iff hv
      · refine iff_of_false ?_ hword
        rintro ⟨misc, word, -, -, -, hw⟩
        rw [h.byteUnit] at hw
        rw [hw] at hword
        exact hword rfl
  rw [limitsAgree_iff (h.kept hs hdir), hgem]
  simp only [LimitSet.Right, hdir, forall_const, if_pos hx]
  rw [← hself]
  constructor
  · rintro ⟨-, -, hall⟩
    have := hall row hrow dir hdir
    rwa [ask_lan hdir, if_pos ⟨rfl, rfl⟩] at this
  · intro hrowdir
    refine ⟨fun d hd => ?_, hother, fun row' hrow' d hd => ?_⟩
    · rw [h.byteUnit, h.gemZero]
      exact h0 d hd
    · rw [ask_lan hdir]
      split
      · rename_i hnamed
        rw [← devMeterIdx_map hrow', hnamed.1, hnamed.2, hidx]
        exact hrowdir
      · rename_i hnamed
        rw [h.byteUnit, h.lanAt_other]
        · exact hlan row' hrow' d hd
        · rintro ⟨hd', hi⟩
          rw [hidx] at hi
          exact hnamed ⟨devMeterMap_inj hrow' hrow hi, hd'⟩

/-- A limit of the first interface that was asked for is in byte mode and fast ticks, so its meter
keeps its bits when it is enabled again. -/
theorem misc_kept {q q' : MeterRegs} {u : Option Nat} {v : Option (BitVec 32)}
    {misc word : BitVec 32} (hv : value ≠ 0#32) (hq : MeterSet q q' 1 0 value)
    (hlimit : meterLimit q 1 0 = some (misc, word)) (ha : InForce u (some (misc, word)) v) :
    meterLimit q' 1 0 = some (misc, (rateWord (Qdma.byteUnit q) value).getD word) := by
  obtain ⟨misc', hq', -, -, rfl⟩ := hq.limit_value hv
  unfold meterLimit at hlimit
  split at hlimit
  case isFalse => cases hlimit
  case isTrue hbit =>
    obtain ⟨rfl, rfl⟩ := Prod.mk.inj (Option.some.inj hlimit)
    cases v with
    | none => cases ha
    | some v₀ =>
      obtain ⟨m, w, heq, hm0, hm1, -⟩ := ha
      obtain ⟨rfl, rfl⟩ := Prod.mk.inj (Option.some.inj heq)
      rw [hq', cfgMisc_eq_self (by simpa [byteCfg] using hm0) (by simpa [byteCfg] using hm1)
        (by simpa [byteCfg, hv] using hbit)]

/-- A write to an unknown name does no harm when the first interface keeps its limit. -/
theorem unknown_kept_iff (ha : InForce (byteUnit (s.qdma dir)) (lanAt s 0 dir) (a.lan "lan1" dir))
    (hdir : dir < 2) (hx : x ∉ devMeterMap.map Prod.fst) (h : LanWritten s dir x value s') :
    lanAt s' 0 dir = lanAt s 0 dir ↔ (LimitSet.lan dir x value).Right s := by
  have hself := h.lanAt_self
  rw [devMeterIdx_unknown hx] at hself
  rw [hself]
  simp only [LimitSet.Right, hdir, forall_const, if_neg hx]
  by_cases hv : value = 0#32
  · rw [if_pos hv, if_pos hv]
    exact eq_comm
  · rw [if_neg hv, if_neg hv]
    have hq := h.meter
    rw [devMeterIdx_unknown hx] at hq
    obtain ⟨misc', hlimit', -⟩ := hq.limit_value hv
    cases hword : rateWord (byteUnit (s.qdma dir)) value with
    | some word =>
      rw [if_pos (show (some word).isSome = true ∨ _ from Or.inl rfl)]
      constructor
      · intro heq
        refine ⟨misc', ?_⟩
        rw [← heq, hlimit', hword]
        rfl
      · rintro ⟨misc, hlan⟩
        rw [hlan] at ha ⊢
        have hmeter : meterLimit (s.qdma dir) 1 0 = some (misc, word) := by
          unfold lanAt at hlan
          split at hlan
          · exact hlan
          · cases hlan
        rw [misc_kept hv hq hmeter ha, hword]
        rfl
    | none =>
      by_cases hflag : s.lanRatelimitEnable dir 0 = 1
      · rw [if_pos (Or.inr hflag)]
        have hlan : lanAt s 0 dir = meterLimit (s.qdma dir) 1 0 := by rw [lanAt, if_pos hflag]
        simp only [hflag, forall_const]
        cases hmeter : meterLimit (s.qdma dir) 1 0 with
        | none =>
          rw [hlan, hmeter, hlimit']
          simp
        | some p =>
          obtain ⟨misc, word⟩ := p
          rw [hlan, hmeter] at ha
          refine iff_of_true ?_ (by simp)
          rw [hlan, misc_kept hv hq hmeter ha, hmeter, hword]
          rfl
      · have hlan : lanAt s 0 dir = none := by rw [lanAt, if_neg hflag]
        rw [if_neg (by simp [hflag]), hlan]
        exact iff_of_true rfl fun hc => absurd hc hflag

/-- A write to an unknown name keeps every limit, and so the agreement, or it does neither. -/
theorem unknown_agree_iff (hs : Kept s) (ha : LimitsAgree s a) (hdir : dir < 2)
    (hx : x ∉ devMeterMap.map Prod.fst) (h : LanWritten s dir x value s') :
    SameLimits s s' ∧ LimitsAgree s' ((LimitSet.lan dir x value).ask a) ↔
      (LimitSet.lan dir x value).Right s := by
  obtain ⟨h0, hother, hlan⟩ := (limitsAgree_iff hs).mp ha
  have hfirst : ("lan1", 0) ∈ devMeterMap := by simp [devMeterMap]
  rw [← unknown_kept_iff (hlan _ hfirst dir hdir) hdir hx h, sameLimits_iff hs (h.kept hs hdir)]
  constructor
  · rintro ⟨⟨-, hall⟩, -⟩
    exact hall _ hfirst dir hdir
  · intro hkept
    have hall : ∀ row ∈ devMeterMap, ∀ d < 2, lanAt s' row.2 d = lanAt s row.2 d := by
      intro row hrow d hd
      by_cases hself : d = dir ∧ row.2 = devMeterIdx x
      · rw [hself.1, hself.2, devMeterIdx_unknown hx]
        exact hkept
      · exact h.lanAt_other hself
    refine ⟨⟨fun d _ => h.gemZero d, hall⟩, (limitsAgree_iff (h.kept hs hdir)).mpr ⟨?_, ?_, ?_⟩⟩
    · intro d hd
      rw [h.byteUnit, h.gemZero, LimitSet.ask, if_pos hdir]
      exact h0 d hd
    · rw [LimitSet.ask, if_pos hdir]
      exact hother
    · intro row hrow d hd
      have hne : row.1 ≠ x := fun hc => hx (hc ▸ List.mem_map_of_mem hrow)
      rw [h.byteUnit, hall row hrow d hd, ask_lan hdir, if_neg fun hc => hne hc.1]
      exact hlan row hrow d hd

end Interface

/-! ## §6 Runs -/

variable {s : RateSys} {a : Asked}

/-- One write: what is kept, and when the limits still agree. -/
theorem limitSet_ends (hs : Kept s) (ha : LimitsAgree s a) (rounds count : Nat) (call : LimitSet) :
    Ends (call.exec (rounds + 1) count) s fun _ s' => Kept s' ∧
      ((call.Unknown → SameLimits s s') ∧ LimitsAgree s' (call.ask a) ↔ call.Right s) := by
  cases call with
  | gemport dir g value =>
    by_cases hnamed : dir ≤ 1 ∧ g ≤ airohaMaxIdxForGemportRatelimit
    case pos =>
      refine Ends.bind (gemport_ends hs rounds count hnamed.1 hnamed.2) fun _ s' h => Ends.pure ?_
      refine ⟨h.kept hs hnamed.1, ?_⟩
      rw [← gemport_agree_iff hs ha hnamed.1 hnamed.2 h]
      exact and_iff_right False.elim
    case neg =>
      refine Ends.bind (P := fun _ s' => s' = s) ?_ fun _ s' h => Ends.pure ?_
      · unfold airohaGemportRatelimitValueWrite
        rw [if_pos hnamed]
        exact Ends.pure rfl
      · subst h
        refine ⟨hs, iff_of_true ⟨False.elim, ?_⟩ fun hdir hg => absurd ⟨hdir, hg⟩ hnamed⟩
        rw [LimitSet.ask, if_neg hnamed]
        exact ha
  | lan dir x value =>
    by_cases hdir : dir < 2
    case pos =>
      refine Ends.bind (lan_ends hs rounds count hdir x) fun _ s' h => Ends.pure ?_
      refine ⟨h.kept hs hdir, ?_⟩
      by_cases hx : x ∈ devMeterMap.map Prod.fst
      · rw [← lan_agree_iff hs ha hdir hx h]
        exact and_iff_right fun hun => absurd hx hun
      · rw [← unknown_agree_iff hs ha hdir hx h]
        exact and_congr_left fun _ => ⟨fun hc => hc hx, fun hc _ => hc⟩
    case neg =>
      refine Ends.bind (P := fun _ s' => s' = s) ?_ fun _ s' h => Ends.pure ?_
      · unfold airohaLanRatelimitValueWrite
        refine Ends.ite (fun _ => Ends.pure rfl) fun h => absurd (Nat.not_le.mp h) hdir
      · subst h
        refine ⟨hs, iff_of_true ⟨fun _ => ⟨fun _ _ _ _ => rfl, fun _ _ _ _ => rfl⟩, ?_⟩
          fun hd => absurd hd hdir⟩
        rw [LimitSet.ask, if_neg hdir]
        exact ha

/-- From a state whose limits agree, they agree all along exactly in the runs of right writes. -/
theorem runFaithful_iff_of_agree (rounds count : Nat) :
    ∀ (calls : List LimitSet) {s : RateSys} {a : Asked}, Kept s → LimitsAgree s a →
      (RunFaithful (rounds + 1) count calls s a ↔ RunRight (rounds + 1) count calls s) := by
  intro calls
  induction calls with
  | nil => exact fun _ ha => iff_of_true ha trivial
  | cons call calls ih =>
    intro s a hs ha
    obtain ⟨r, s', hrun, hs', hiff⟩ := limitSet_ends hs ha rounds count call
    constructor
    · rintro ⟨-, h⟩
      obtain ⟨hsame, hrest⟩ := h.of_run hrun
      have ha' : LimitsAgree s' (call.ask a) := by
        cases calls with
        | nil => exact hrest
        | cons _ _ => exact hrest.1
      exact ⟨hiff.mp ⟨hsame, ha'⟩, r, s', hrun, (ih hs' ha').mp hrest⟩
    · rintro ⟨hright, h⟩
      obtain ⟨hsame, ha'⟩ := hiff.mpr hright
      exact ⟨ha, r, s', hrun, hsame, (ih hs' ha').mpr (h.of_run hrun)⟩

/-- No flag is set, and both modules are in rate-limit mode; the meters hold anything. -/
structure Fresh (s : RateSys) : Prop where
  mode : ∀ d < 2, RatelimitMode (s.qdma d)
  gem : ∀ g, s.gemportRatelimitEnable g = 0
  lan : ∀ d i, s.lanRatelimitEnable d i = 0

theorem Fresh.kept (h : Fresh s) : Kept s := ⟨h.mode, fun g _ => h.gem g⟩

theorem Fresh.agree (h : Fresh s) : LimitsAgree s .nothing := by
  rw [limitsAgree_iff h.kept]
  refine ⟨fun d _ => ?_, fun _ _ _ _ _ => rfl, fun row _ d _ => ?_⟩
  · rw [gemZero, if_pos (h.gem 0)]
    rfl
  · rw [lanAt, h.lan]
    rfl

/-- In a run of `set` writes the limits in force are those asked for, after each of them, exactly
when each of them is right in the state it finds. -/
theorem runFaithful_iff (rounds count : Nat) (calls : List LimitSet) (s : RateSys) (h : Fresh s) :
    RunFaithful (rounds + 1) count calls s .nothing ↔ RunRight (rounds + 1) count calls s :=
  runFaithful_iff_of_agree rounds count calls h.kept h.agree

/-- Both engines idle. -/
def idleSys : RateSys where
  qdma := fun _ => idleMeters
  gemportRatelimitEnable := fun _ => 0
  lanRatelimitEnable := fun _ _ => 0
  gemportRatelimitFlag := 1

theorem fresh_idle : Fresh idleSys := ⟨fun _ _ => ratelimitMode_idle, fun _ => rfl, fun _ _ => rfl⟩

theorem runFaithful_iff_idle :
    RunFaithful 1 8 [.gemport 0 0 1000#32, .lan 1 "lan2" 5000#32] idleSys .nothing ↔
      RunRight 1 8 [.gemport 0 0 1000#32, .lan 1 "lan2" 5000#32] idleSys :=
  runFaithful_iff 0 8 _ idleSys fresh_idle

/-- A limit for GEM port 5 limits port 0, and one for a name that is not in the map limits the first
interface. -/
theorem not_runFaithful_idle :
    ¬ RunFaithful 1 8 [.gemport 0 5 1000#32] idleSys .nothing ∧
      ¬ RunFaithful 1 8 [.lan 0 "wlan0" 1000#32] idleSys .nothing := by
  rw [runFaithful_iff_of_agree 0 8 _ fresh_idle.kept fresh_idle.agree,
    runFaithful_iff_of_agree 0 8 _ fresh_idle.kept fresh_idle.agree]
  constructor
  · rintro ⟨hright, -⟩
    have h := hright (by decide) (by decide)
    rw [if_neg (by decide)] at h
    exact absurd h.1 (by decide)
  · rintro ⟨hright, -⟩
    have h := hright (by decide)
    rw [if_neg (by simp [devMeterMap]), if_neg (by decide)] at h
    have hword : rateWord (byteUnit (idleSys.qdma 0)) 1000#32 = some (tokenRate 15 40) := by
      decide
    rw [hword] at h
    obtain ⟨misc, hlan⟩ := h
    cases hlan

end Airoha.Qdma
