/-
Airoha.Pwm.Driver — the PWM driver of the EN7581.

Translates `pwm-airoha.c`. Thirty-three channels share eight waveform
generators, the buckets. `buckets` counts the users of each one, a channel
that is `initialized` uses the one in `channelBucket`. The registers have the
period and duty of a bucket, and for each channel its bucket and an enable
bit, eight channels to a register.

Any register access may fail: `Io` gives what each access of a call returns,
0 if it is done, an error otherwise, and then the register is as before.

Left out are the probe and what it turns on.
-/
import Airoha.Lib.Regmap

namespace Airoha.Pwm

open Airoha.Lib

/-! ## State -/

/-- `struct airoha_pwm_bucket` -/
structure Bucket where
  used : Int
  periodTicks : BitVec 32
  dutyTicks : BitVec 32

/-- `struct airoha_pwm` -/
structure AirohaPwm where
  regmap : Regs
  initialized : Nat → Bool
  buckets : Nat → Bucket
  channelBucket : Nat → Nat

/-- The register accesses of a call. -/
inductive Access where
  | cycleCfg
  | flashPrdHigh
  | flashPrdLow
  | flashSetId
  | flashEn
  | flashOff
  | sipoMode
  | sipoDivr
  | sipoDly
  | sipoPoll
  | sipoData
  | sipoPollData
  | sipoFlash
  | sipoOff
deriving DecidableEq, Repr

/-- The error of each access, 0 for none. -/
abbrev Io := Access → Nat

/-- Code that returns 0 or an error. -/
abbrev Step := AirohaPwm → AirohaPwm × Int

/-- `ret = f; if (ret) return ret; return g;` -/
def Step.andThen (f g : Step) : Step := fun pc =>
  let r := f pc
  if r.2 ≠ 0 then r else g r.1

/-- One access. -/
def access (io : Io) (a : Access) (f : Regs → Regs) : Step := fun pc =>
  if io a = 0 then ({ pc with regmap := f pc.regmap }, 0) else (pc, -(io a : Int))

/-- `AIROHA_PWM_NUM_BUCKETS` -/
def numBuckets : Nat := 8
/-- `AIROHA_PWM_NUM_GPIO` -/
def numGpio : Nat := 16
/-- `AIROHA_PWM_NUM_SIPO` -/
def numSipo : Nat := 17
/-- `AIROHA_PWM_DUTY_FULL` -/
def dutyFull : BitVec 32 := 255#32
/-- `AIROHA_PWM_PERIOD_TICK_NS` -/
def periodTickNs : Nat := 4000000
/-- `AIROHA_PWM_PERIOD_MAX_NS` -/
def periodMaxNs : Nat := 1000000000
/-- `ENOENT` -/
def enoent : Int := 2
/-- `EINVAL` -/
def einval : Int := 22

/-! ## Register layout -/

/-- `AIROHA_PWM_REG_SGPIO_LED_DATA` -/
def regSgpioLedData : Nat := 0x0024
/-- `AIROHA_PWM_REG_SGPIO_CLK_DIVR` -/
def regSgpioClkDivr : Nat := 0x0028
/-- `AIROHA_PWM_REG_SGPIO_CLK_DLY` -/
def regSgpioClkDly : Nat := 0x002c
/-- `AIROHA_PWM_REG_SIPO_FLASH_MODE_CFG` -/
def regSipoFlashModeCfg : Nat := 0x0030
/-- `AIROHA_PWM_REG_GPIO_FLASH_PRD_SET` -/
def regGpioFlashPrdSet (n : Nat) : Nat := 0x003c + 4 * n
/-- `AIROHA_PWM_REG_GPIO_FLASH_MAP` -/
def regGpioFlashMap (n : Nat) : Nat := 0x004c + 4 * n
/-- `AIROHA_PWM_REG_SIPO_FLASH_MAP` -/
def regSipoFlashMap (n : Nat) : Nat := 0x0054 + 4 * n
/-- `AIROHA_PWM_REG_CYCLE_CFG_VALUE` -/
def regCycleCfgValue (n : Nat) : Nat := 0x0098 + 4 * n

/-- `AIROHA_PWM_WAVE_GEN_CYCLE` -/
def waveGenCycle : BitVec 32 := mask 32 0 8
/-- `AIROHA_PWM_GPIO_FLASH_PRD_HIGH` -/
def flashPrdHigh : BitVec 32 := mask 32 0 8
/-- `AIROHA_PWM_GPIO_FLASH_PRD_LOW` -/
def flashPrdLow : BitVec 32 := mask 32 8 8
/-- `AIROHA_PWM_GPIO_FLASH_SET_ID` -/
def flashSetId : BitVec 32 := mask 32 0 3
/-- `AIROHA_PWM_GPIO_FLASH_EN` -/
def flashEn : BitVec 32 := mask 32 3 1

/-- `airoha_pwm_get_flash_map_addr_and_shift` -/
def airohaPwmGetFlashMapAddrAndShift (hwpwm : Nat) : Nat × Nat :=
  if numGpio ≤ hwpwm then
    (regSipoFlashMap ((hwpwm - numGpio) / 8), 4 * ((hwpwm - numGpio) % 8))
  else (regGpioFlashMap (hwpwm / 8), 4 * (hwpwm % 8))

/-! ## Ticks -/

/-- `airoha_pwm_get_period_ticks_from_ns` -/
def airohaPwmGetPeriodTicksFromNs (periodNs : BitVec 32) : BitVec 32 :=
  BitVec.ofNat 32 (periodNs.toNat / periodTickNs)

/-- `airoha_pwm_get_duty_ticks_from_ns` -/
def airohaPwmGetDutyTicksFromNs (periodNs dutyNs : BitVec 32) : BitVec 32 :=
  BitVec.ofNat 32 (dutyNs.toNat * dutyFull.toNat / periodNs.toNat)

/-- `airoha_pwm_get_period_ns_from_ticks` -/
def airohaPwmGetPeriodNsFromTicks (periodTick : BitVec 32) : BitVec 32 :=
  BitVec.ofNat 32 (periodTick.toNat * periodTickNs)

/-- `airoha_pwm_get_duty_ns_from_ticks`; the product is one of two `u32`. -/
def airohaPwmGetDutyNsFromTicks (periodTick dutyTick : BitVec 32) : BitVec 32 :=
  let periodNs := BitVec.ofNat 32 (periodTick.toNat * periodTickNs)
  BitVec.ofNat 32 (((dutyTick * periodNs).toNat + dutyFull.toNat - 1) / dutyFull.toNat)

/-! ## Buckets -/

/-- The variables of the search for a generator. -/
structure Search where
  best : Int
  unused : Int
  bestDutyNs : BitVec 32
  bestPeriodTicks : BitVec 32

/-- The loop of `airoha_pwm_get_generator`, from bucket `i` on with `n` to go. -/
def generatorLoop (buckets : Nat → Bucket) (dutyTicks periodTicks dutyNs : BitVec 32) :
    Nat → Nat → Search → Int
  | _, 0, s => if 0 ≤ s.unused then s.unused else s.best
  | i, n + 1, s =>
      let bucket := buckets i
      let next := generatorLoop buckets dutyTicks periodTicks dutyNs (i + 1) n
      if bucket.used = 0 then next { s with unused := i }
      else if dutyTicks = bucket.dutyTicks ∧ periodTicks = bucket.periodTicks then i
      else if dutyTicks = dutyFull ∧ bucket.dutyTicks = dutyFull then i
      else if 0 ≤ s.unused then next s
      else if periodTicks < bucket.periodTicks then next s
      else if s.bestPeriodTicks ≤ bucket.periodTicks then
        let bucketDutyNs := airohaPwmGetDutyNsFromTicks bucket.periodTicks bucket.dutyTicks
        if dutyNs < bucketDutyNs then next s
        else if s.bestDutyNs < bucketDutyNs then
          next
            { s with bestPeriodTicks := bucket.periodTicks, bestDutyNs := bucketDutyNs, best := i }
        else next s
      else next s

/-- `airoha_pwm_get_generator` -/
def airohaPwmGetGenerator (pc : AirohaPwm) (dutyTicks periodTicks : BitVec 32) : Int :=
  generatorLoop pc.buckets dutyTicks periodTicks (airohaPwmGetDutyNsFromTicks periodTicks dutyTicks)
    0 numBuckets { best := -enoent, unused := -enoent, bestDutyNs := 0#32, bestPeriodTicks := 0#32 }

/-- `pc->buckets[bucket].used += d` -/
def AirohaPwm.addUsed (pc : AirohaPwm) (bucket : Nat) (d : Int) : AirohaPwm :=
  { pc with
    buckets := Function.update pc.buckets bucket
      { pc.buckets bucket with used := (pc.buckets bucket).used + d } }

/-- `airoha_pwm_release_bucket_config` -/
def airohaPwmReleaseBucketConfig (pc : AirohaPwm) (hwpwm : Nat) : AirohaPwm :=
  if pc.initialized hwpwm then pc.addUsed (pc.channelBucket hwpwm) (-1) else pc

/-- `airoha_pwm_apply_bucket_config` -/
def airohaPwmApplyBucketConfig (io : Io) (bucket : Nat) (dutyTicks periodTicks : BitVec 32) :
    Step :=
  let cycleShift := 8 * (bucket % 4)
  let prdShift := 16 * (bucket % 2)
  Step.andThen
    (access io .cycleCfg (updateBits (regCycleCfgValue (bucket / 4)) (waveGenCycle <<< cycleShift)
      (fieldPrep 0 8 periodTicks <<< cycleShift)))
    (Step.andThen
      (access io .flashPrdHigh (updateBits (regGpioFlashPrdSet (bucket / 2))
        (flashPrdHigh <<< prdShift) (fieldPrep 0 8 dutyTicks <<< prdShift)))
      (access io .flashPrdLow (updateBits (regGpioFlashPrdSet (bucket / 2))
        (flashPrdLow <<< prdShift) (fieldPrep 8 8 (dutyFull - dutyTicks) <<< prdShift))))

/-- `airoha_pwm_consume_generator` -/
def airohaPwmConsumeGenerator (io : Io) (dutyTicks periodTicks : BitVec 32) (hwpwm : Nat) : Step :=
  fun pc =>
    let bucket := airohaPwmGetGenerator pc dutyTicks periodTicks
    if bucket < 0 then (pc, bucket)
    else
      let b := bucket.toNat
      let pc := airohaPwmReleaseBucketConfig pc hwpwm
      let configBucket := (pc.buckets b).used = 0
      let pc := pc.addUsed b 1
      if configBucket then
        let pc := { pc with
          buckets := Function.update pc.buckets b
            { pc.buckets b with periodTicks := periodTicks, dutyTicks := dutyTicks } }
        let r := airohaPwmApplyBucketConfig io b dutyTicks periodTicks pc
        if r.2 ≠ 0 then (r.1.addUsed b (-1), r.2) else (r.1, bucket)
      else (pc, bucket)

/-! ## Channels -/

/-- `airoha_pwm_sipo_init`. The two polls read only. -/
def airohaPwmSipoInit (io : Io) : Step :=
  Step.andThen (access io .sipoMode (updateBits regSipoFlashModeCfg (mask 32 0 1) 0#32))
  (Step.andThen (access io .sipoDivr fun r => Function.update r regSgpioClkDivr 3#32)
  (Step.andThen (access io .sipoDly fun r => Function.update r regSgpioClkDly 0#32)
  (Step.andThen (access io .sipoPoll id)
  (Step.andThen (access io .sipoData (updateBits regSgpioLedData (mask 32 0 17) 0#32))
  (Step.andThen (access io .sipoPollData id)
    (access io .sipoFlash (updateBits regSipoFlashModeCfg (mask 32 1 1) (mask 32 1 1))))))))

/-- `airoha_pwm_config_flash_map` for an index that is not negative -/
def airohaPwmConfigFlashMap (io : Io) (hwpwm index : Nat) : Step :=
  let addr := (airohaPwmGetFlashMapAddrAndShift hwpwm).1
  let shift := (airohaPwmGetFlashMapAddrAndShift hwpwm).2
  Step.andThen
    (access io .flashSetId (updateBits addr (flashSetId <<< shift)
      (fieldPrep 0 3 (BitVec.ofNat 32 index) <<< shift)))
    (access io .flashEn (updateBits addr (flashEn <<< shift) (flashEn <<< shift)))

/-- `airoha_pwm_config_flash_map` for a negative index -/
def airohaPwmConfigFlashMapOff (io : Io) (hwpwm : Nat) : Step :=
  let addr := (airohaPwmGetFlashMapAddrAndShift hwpwm).1
  let shift := (airohaPwmGetFlashMapAddrAndShift hwpwm).2
  access io .flashOff (updateBits addr (flashEn <<< shift) 0#32)

/-- `airoha_pwm_config` -/
def airohaPwmConfig (io : Io) (hwpwm : Nat) (periodTicks dutyTicks : BitVec 32) : Step := fun pc =>
  let r := airohaPwmConsumeGenerator io dutyTicks periodTicks hwpwm pc
  if r.2 < 0 then r
  else
    let bucket := r.2.toNat
    let m := airohaPwmConfigFlashMap io hwpwm bucket r.1
    if m.2 ≠ 0 then (m.1.addUsed bucket (-1), m.2)
    else
      let pc := { m.1 with
        initialized := Function.update m.1.initialized hwpwm true
        channelBucket := Function.update m.1.channelBucket hwpwm bucket }
      if numGpio ≤ hwpwm then
        let s := airohaPwmSipoInit io pc
        if s.2 ≠ 0 then (airohaPwmReleaseBucketConfig s.1 hwpwm, s.2) else (s.1, 0)
      else (pc, 0)

/-- `bitmap_read(pc->initialized, AIROHA_PWM_NUM_GPIO, AIROHA_PWM_NUM_SIPO)` is not zero. -/
def anySipo (pc : AirohaPwm) : Bool :=
  (List.range numSipo).any fun k => pc.initialized (numGpio + k)

/-- `airoha_pwm_disable` -/
def airohaPwmDisable (io : Io) (hwpwm : Nat) (pc : AirohaPwm) : AirohaPwm :=
  let pc := (airohaPwmConfigFlashMapOff io hwpwm pc).1
  let pc := airohaPwmReleaseBucketConfig pc hwpwm
  let pc := { pc with initialized := Function.update pc.initialized hwpwm false }
  if anySipo pc then pc
  else (access io .sipoOff (updateBits regSipoFlashModeCfg (mask 32 1 1) 0#32) pc).1

/-- `struct pwm_state` -/
structure State where
  enabled : Bool
  inversed : Bool
  period : BitVec 64
  dutyCycle : BitVec 64

/-- The period and duty ticks that `airoha_pwm_apply` asks for; none when it returns `-EINVAL`. -/
def State.ticks (state : State) : Option (BitVec 32 × BitVec 32) :=
  if state.inversed then none
  else if state.period.toNat < periodTickNs then none
  else
    let periodNs : BitVec 32 :=
      if periodMaxNs < state.period.toNat then BitVec.ofNat 32 periodMaxNs
      else state.period.setWidth 32
    let dutyNs : BitVec 32 :=
      if periodNs.toNat < state.dutyCycle.toNat then periodNs else state.dutyCycle.setWidth 32
    let periodTicks := airohaPwmGetPeriodTicksFromNs periodNs
    let periodNs := airohaPwmGetPeriodNsFromTicks periodTicks
    some (periodTicks, airohaPwmGetDutyTicksFromNs periodNs dutyNs)

/-- `airoha_pwm_apply` -/
def airohaPwmApply (io : Io) (hwpwm : Nat) (state : State) : Step := fun pc =>
  if state.enabled then
    match state.ticks with
    | none => (pc, -einval)
    | some (periodTicks, dutyTicks) => airohaPwmConfig io hwpwm periodTicks dutyTicks pc
  else (airohaPwmDisable io hwpwm pc, 0)

end Airoha.Pwm
