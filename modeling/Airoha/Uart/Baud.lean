/-
Airoha.Uart.Baud — the baud rate of the EN7523 UART.

Translates `en7523_set_uart_baud_rate` of `8250_en7523.c`. The UART divides a
clock of 20 MHz by the entry that XINCLKDR selects, multiplies it by the
fraction x / y in the two halves of XYD, and divides by sixteen times the 16550
divisor. The driver leaves y and the divisor at fixed values and tries three
dividers until x comes out below y.

The division of `nom` by `denom` comes before the shift by four, so that x is a
multiple of 16 and the rate falls short by the remainder of that division over
1625. `baud_right_iff` says for which rates that is within the 3 percent, and for
which rates outside the documented range XYD still holds a fraction below 1.

The rate is what `serial8250_do_set_termios` found; that function is left out.
-/
import Airoha.Lib.Bits
import Mathlib.Tactic.FieldSimp
import Mathlib.Tactic.Linarith
import Mathlib.Data.Rat.Cast.Order

namespace Airoha.Uart.Baud

open Airoha.Lib

/-! ## The port -/

/-- The port as the driver sees it. Offsets 0 and 1 are the divisor latch while the DLAB bit of the
line control register is set. -/
structure UartPort where
  lcr : BitVec 32
  reg : Nat → BitVec 32
  latch : Nat → BitVec 32

/-- `UART_BRDL` -/
def uartBrdl : Nat := 0
/-- `UART_BRDH` -/
def uartBrdh : Nat := 1
/-- `UART_LCR` -/
def uartLcr : Nat := 3
/-- `UART_XINCLKDR` -/
def uartXinclkdr : Nat := 10
/-- `UART_XYD` -/
def uartXyd : Nat := 11
/-- `UART_LCR_DLAB` -/
def uartLcrDlab : BitVec 32 := 0x80#32

/-- `serial_port_out` -/
def serialPortOut (offset : Nat) (value : BitVec 32) (port : UartPort) : UartPort :=
  if offset ≤ uartBrdh ∧ port.reg uartLcr &&& uartLcrDlab ≠ 0#32 then
    { port with latch := Function.update port.latch offset value }
  else { port with reg := Function.update port.reg offset value }

/-! ## The driver -/

/-- `XYD_Y` -/
def xydY : BitVec 32 := 65000#32
/-- `XINDIV_CLOCK` -/
def xindivClock : BitVec 32 := 20000000#32
/-- `UART_BRDL_20M` -/
def uartBrdl20M : BitVec 32 := 0x01#32
/-- `UART_BRDH_20M` -/
def uartBrdh20M : BitVec 32 := 0x00#32
/-- `clock_div_tab` -/
def clockDivTab : List (BitVec 32) := [10#32, 4#32, 2#32]
/-- `clock_div_reg` -/
def clockDivReg : List (BitVec 32) := [4#32, 2#32, 1#32]
/-- `CLOCK_DIV_TAB_ELEMS` -/
def clockDivTabElems : Nat := 3

/-- `denom` with the divider `div`. -/
def denom (div : BitVec 32) : BitVec 32 := xindivClock / 40#32 / div

/-- `nom` -/
def nom (baud : BitVec 32) : BitVec 32 := baud * (xydY / 40#32)

/-- `xyd_x` with the divider `div`. -/
def xydX (baud div : BitVec 32) : BitVec 32 := (nom baud / denom div) <<< 4

/-- The loop over `clock_div_tab`, from the entry `i` on: the `i` and the `xyd_x` it is left
with. -/
def clockDivLoop (baud : BitVec 32) : Nat → List (BitVec 32) → BitVec 32 → Nat × BitVec 32
  | i, [], x => (i, x)
  | i, div :: tab, _ =>
    let x := xydX baud div
    if x < xydY then (i, x) else clockDivLoop baud (i + 1) tab x

/-- `i` and `xyd_x` after the loop and the bound on `i`. The loop runs at least once, so that the
value `xyd_x` has before it is not used. -/
def chosen (baud : BitVec 32) : Nat × BitVec 32 :=
  let r := clockDivLoop baud 0 clockDivTab 0#32
  (if r.1 ≥ clockDivTabElems then clockDivTabElems - 1 else r.1, r.2)

/-- `en7523_set_uart_baud_rate` -/
def en7523SetUartBaudRate (port : UartPort) (baud : BitVec 32) : UartPort × Int :=
  let lcr := port.lcr
  let port := serialPortOut uartLcr (lcr ||| uartLcrDlab) port
  let port := serialPortOut uartBrdl uartBrdl20M port
  let port := serialPortOut uartBrdh uartBrdh20M port
  let (i, x) := chosen baud
  let port := serialPortOut uartXinclkdr (clockDivReg.getD i 0#32) port
  let port := serialPortOut uartXyd ((x <<< 16) ||| xydY) port
  let port := serialPortOut uartLcr lcr port
  (port, 0)

/-! ## The rate -/

/-- The dividers of XINCLK_DIVCNT. -/
def xinclkDivcnt : List Nat := [1, 2, 4, 8, 10, 12, 16, 20]

/-- x of the XYD register -/
def UartPort.x (port : UartPort) : Nat := (hi16 (port.reg uartXyd)).toNat

/-- y of the XYD register -/
def UartPort.y (port : UartPort) : Nat := (lo16 (port.reg uartXyd)).toNat

/-- [BRDH,BRDL] -/
def UartPort.brd (port : UartPort) : Nat :=
  (port.latch uartBrdh).toNat * 256 + (port.latch uartBrdl).toNat

/-- The divider of the clock. -/
def UartPort.clockDiv (port : UartPort) : Nat :=
  xinclkDivcnt.getD (port.reg uartXinclkdr).toNat 1

/-- `baud_rate = ((xindiv_clock) * (x/y)) / ([BRDH,BRDL] * 16)` -/
def UartPort.rate (port : UartPort) : ℚ :=
  20000000 / port.clockDiv * (port.x / port.y) / (port.brd * 16)

/-- The rates that the driver gives as usable. -/
def Documented (baud : BitVec 32) : Prop := 110 ≤ baud.toNat ∧ baud.toNat ≤ 460800

instance (baud : BitVec 32) : Decidable (Documented baud) :=
  inferInstanceAs (Decidable (_ ∧ _))

/-- The computation of `xyd_x` is that of the naturals with every divider. -/
def NoOverflow (baud : BitVec 32) : Prop :=
  (nom baud).toNat = baud.toNat * 1625 ∧
    ∀ div ∈ clockDivTab, (xydX baud div).toNat = (nom baud).toNat / (denom div).toNat * 2 ^ 4

/-- XYD has the computed x, and it is below y. -/
def Fraction (port : UartPort) (baud : BitVec 32) : Prop :=
  port.x = (chosen baud).2.toNat ∧ port.x < port.y

/-- What is asked of `en7523_set_uart_baud_rate` for one baud rate. -/
structure Right (port : UartPort) (baud : BitVec 32) : Prop where
  fraction : Fraction (en7523SetUartBaudRate port baud).1 baud
  noOverflow : Documented baud → NoOverflow baud
  nonzero : Documented baud → (en7523SetUartBaudRate port baud).1.x ≠ 0
  fits : Documented baud → (chosen baud).2.toNat < 2 ^ 16
  close : Documented baud →
    |(en7523SetUartBaudRate port baud).1.rate - baud.toNat| ≤ 3 / 100 * baud.toNat

/-! ## The registers after the call -/

variable (port : UartPort) (baud : BitVec 32)

theorem dlab_or (l : BitVec 32) : (l ||| uartLcrDlab) &&& uartLcrDlab ≠ 0#32 := by
  intro h
  have hbit := congrArg (fun v => v.getLsbD 7) h
  simp [uartLcrDlab] at hbit

/-- Offsets behind the divisor latch are never paged. -/
theorem serialPortOut_high {offset : Nat} (h : uartBrdh < offset) (value : BitVec 32) :
    serialPortOut offset value port =
      { port with reg := Function.update port.reg offset value } :=
  if_neg fun hc => absurd hc.1 (Nat.not_le.mpr h)

theorem serialPortOut_latch {offset : Nat} (h : offset ≤ uartBrdh)
    (hdlab : port.reg uartLcr &&& uartLcrDlab ≠ 0#32) (value : BitVec 32) :
    serialPortOut offset value port =
      { port with latch := Function.update port.latch offset value } :=
  if_pos ⟨h, hdlab⟩

/-- What the call writes, and where. -/
theorem setUartBaudRate_eq :
    (en7523SetUartBaudRate port baud).1 =
      { port with
        latch := Function.update (Function.update port.latch uartBrdl uartBrdl20M) uartBrdh
          uartBrdh20M
        reg := Function.update (Function.update (Function.update (Function.update port.reg uartLcr
          (port.lcr ||| uartLcrDlab)) uartXinclkdr (clockDivReg.getD (chosen baud).1 0#32)) uartXyd
          (((chosen baud).2 <<< 16) ||| xydY)) uartLcr port.lcr } := by
  have hdlab : Function.update port.reg uartLcr (port.lcr ||| uartLcrDlab) uartLcr &&&
      uartLcrDlab ≠ 0#32 := by
    rw [Function.update_self]
    exact dlab_or port.lcr
  simp only [en7523SetUartBaudRate]
  rw [serialPortOut_high port (by decide),
    serialPortOut_latch _ (show uartBrdl ≤ uartBrdh by decide) hdlab,
    serialPortOut_latch _ (show uartBrdh ≤ uartBrdh by decide) hdlab,
    serialPortOut_high _ (show uartBrdh < uartXinclkdr by decide),
    serialPortOut_high _ (show uartBrdh < uartXyd by decide),
    serialPortOut_high _ (show uartBrdh < uartLcr by decide)]

theorem reg_xyd :
    (en7523SetUartBaudRate port baud).1.reg uartXyd = ((chosen baud).2 <<< 16) ||| xydY := by
  rw [setUartBaudRate_eq]
  rfl

/-- The halves of `(x << 16) | y` for a y of 16 bits. -/
theorem hi16_shiftLeft_or (x y : BitVec 32) (hy : hi16 y = 0#16) :
    hi16 (x <<< 16 ||| y) = lo16 x := by
  apply BitVec.eq_of_getLsbD_eq
  intro i hi
  have hyi : y.getLsbD (16 + i) = false := by
    have hbit : (hi16 y).getLsbD i = (0#16).getLsbD i := by rw [hy]
    simpa only [getLsbD_hi16, hi, decide_true, Bool.true_and, BitVec.getLsbD_zero] using hbit
  have h32 : 16 + i < 32 := by omega
  rw [getLsbD_hi16, getLsbD_lo16, BitVec.getLsbD_or, BitVec.getLsbD_shiftLeft, hyi]
  simp [h32]

theorem lo16_shiftLeft_or (x y : BitVec 32) : lo16 (x <<< 16 ||| y) = lo16 y := by
  apply BitVec.eq_of_getLsbD_eq
  intro i hi
  rw [getLsbD_lo16, getLsbD_lo16, BitVec.getLsbD_or, BitVec.getLsbD_shiftLeft]
  simp [hi]

theorem x_eq : (en7523SetUartBaudRate port baud).1.x = (chosen baud).2.toNat % 2 ^ 16 := by
  rw [UartPort.x, reg_xyd, hi16_shiftLeft_or _ _ (by decide)]
  simp [lo16]

theorem y_eq : (en7523SetUartBaudRate port baud).1.y = 65000 := by
  rw [UartPort.y, reg_xyd, lo16_shiftLeft_or]
  rfl

theorem brd_eq : (en7523SetUartBaudRate port baud).1.brd = 1 := by
  rw [UartPort.brd, setUartBaudRate_eq]
  simp only [Function.update_of_ne (show uartBrdl ≠ uartBrdh by decide), Function.update_self]
  decide

theorem clockDiv_eq : (en7523SetUartBaudRate port baud).1.clockDiv =
    xinclkDivcnt.getD (clockDivReg.getD (chosen baud).1 0#32).toNat 1 := by
  rw [UartPort.clockDiv, setUartBaudRate_eq]
  simp only [Function.update_of_ne (show uartXinclkdr ≠ uartLcr by decide),
    Function.update_of_ne (show uartXinclkdr ≠ uartXyd by decide), Function.update_self]

/-! ## The loop -/

theorem toNat_nom : (nom baud).toNat = baud.toNat * 1625 % 2 ^ 32 := by
  rw [nom, BitVec.toNat_mul]
  rfl

/-- The shift loses nothing, since a quotient by 50000 or more leaves four bits free. -/
theorem toNat_xydX (div : BitVec 32) (hd : 50000 ≤ (denom div).toNat) :
    (xydX baud div).toNat = (nom baud).toNat / (denom div).toNat * 16 := by
  have hlt : (nom baud).toNat < 2 ^ 32 := (nom baud).isLt
  have hquot : (nom baud).toNat / (denom div).toNat ≤ (nom baud).toNat / 50000 :=
    Nat.div_le_div_left hd (by decide)
  rw [xydX, BitVec.toNat_shiftLeft, BitVec.toNat_udiv, Nat.shiftLeft_eq]
  exact Nat.mod_eq_of_lt (by omega)

/-- The `denom` that the loop is left with, for the product `n`. -/
def lastDenom (n : Nat) : Nat :=
  if n / 50000 * 16 < 65000 then 50000 else if n / 125000 * 16 < 65000 then 125000 else 250000

theorem lastDenom_cases (n : Nat) :
    lastDenom n = 50000 ∧ n / 50000 * 16 < 65000 ∨
      lastDenom n = 125000 ∧ 65000 ≤ n / 50000 * 16 ∧ n / 125000 * 16 < 65000 ∨
      lastDenom n = 250000 ∧ 65000 ≤ n / 125000 * 16 := by
  unfold lastDenom
  by_cases h10 : n / 50000 * 16 < 65000
  · exact .inl ⟨if_pos h10, h10⟩
  by_cases h4 : n / 125000 * 16 < 65000
  · exact .inr (.inl ⟨by rw [if_neg h10, if_pos h4], Nat.not_lt.mp h10, h4⟩)
  · exact .inr (.inr ⟨by rw [if_neg h10, if_neg h4], Nat.not_lt.mp h4⟩)

/-- Where the loop stops, and what XINCLKDR is then given. -/
theorem chosen_eq :
    (chosen baud).2.toNat = (nom baud).toNat / lastDenom (nom baud).toNat * 16 ∧
      xinclkDivcnt.getD (clockDivReg.getD (chosen baud).1 0#32).toNat 1 =
        500000 / lastDenom (nom baud).toNat := by
  have h10 := toNat_xydX baud 10#32 (by decide)
  have h4 := toNat_xydX baud 4#32 (by decide)
  have h2 := toNat_xydX baud 2#32 (by decide)
  rw [show (denom 10#32).toNat = 50000 from rfl] at h10
  rw [show (denom 4#32).toNat = 125000 from rfl] at h4
  rw [show (denom 2#32).toNat = 250000 from rfl] at h2
  have hy : xydY.toNat = 65000 := rfl
  simp only [chosen, clockDivTab, clockDivLoop, BitVec.lt_def, h10, h4, h2, hy, lastDenom]
  split
  · exact ⟨h10, rfl⟩
  split
  · exact ⟨h4, rfl⟩
  split
  · exact ⟨h2, rfl⟩
  · exact ⟨h2, rfl⟩

/-! ## The condition -/

/-- The fraction is right exactly when the loop ends with an x below y. -/
theorem fraction_iff :
    Fraction (en7523SetUartBaudRate port baud).1 baud ↔
      baud.toNat * 1625 % 2 ^ 32 < 1015750000 := by
  have hfits : ∀ x : Nat, x % 2 ^ 16 = x ∧ x % 2 ^ 16 < 65000 ↔ x < 65000 := by
    intro x
    constructor
    · rintro ⟨hx, hlt⟩
      rwa [hx] at hlt
    · intro hlt
      rw [Nat.mod_eq_of_lt (by omega)]
      exact ⟨rfl, hlt⟩
  rw [Fraction, x_eq, y_eq, hfits, (chosen_eq baud).1, toNat_nom]
  generalize baud.toNat * 1625 % 2 ^ 32 = n
  rcases lastDenom_cases n with ⟨h, hx⟩ | ⟨h, -, hx⟩ | ⟨h, hx⟩ <;> rw [h] <;> omega

/-- The rate falls short by the remainder of the division. -/
theorem rate_eq (h : Fraction (en7523SetUartBaudRate port baud).1 baud) :
    (en7523SetUartBaudRate port baud).1.rate =
      ((nom baud).toNat / lastDenom (nom baud).toNat * lastDenom (nom baud).toNat : Nat) /
        1625 := by
  have hx := h.1
  rw [UartPort.rate, hx, y_eq, brd_eq, clockDiv_eq, (chosen_eq baud).2, (chosen_eq baud).1]
  generalize (nom baud).toNat = n
  rcases lastDenom_cases n with ⟨h, -⟩ | ⟨h, -⟩ | ⟨h, -⟩ <;> rw [h] <;> push_cast <;> ring

/-- A documented rate does not wrap the product. -/
theorem toNat_nom_of_documented (h : Documented baud) : (nom baud).toNat = baud.toNat * 1625 := by
  rw [toNat_nom]
  exact Nat.mod_eq_of_lt (by unfold Documented at h; omega)

theorem noOverflow_of_documented (h : Documented baud) : NoOverflow baud := by
  refine ⟨toNat_nom_of_documented baud h, fun div hdiv => toNat_xydX baud div ?_⟩
  simp only [clockDivTab, List.mem_cons, List.not_mem_nil, or_false] at hdiv
  rcases hdiv with rfl | rfl | rfl <;> decide

theorem fraction_of_documented (h : Documented baud) :
    Fraction (en7523SetUartBaudRate port baud).1 baud := by
  rw [fraction_iff, ← toNat_nom, toNat_nom_of_documented baud h]
  have hhi := h.2
  omega

theorem nonzero_of_documented (h : Documented baud) :
    (en7523SetUartBaudRate port baud).1.x ≠ 0 := by
  rw [(fraction_of_documented port baud h).1, (chosen_eq baud).1, toNat_nom_of_documented baud h]
  obtain ⟨hlo, -⟩ := h
  rcases lastDenom_cases (baud.toNat * 1625) with ⟨hd, -⟩ | ⟨hd, hq, -⟩ | ⟨hd, hq⟩ <;> rw [hd] <;>
    omega

/-- The error of the rate, in 1625ths. -/
theorem rate_sub (h : Documented baud) :
    (en7523SetUartBaudRate port baud).1.rate - baud.toNat =
      -((baud.toNat * 1625 % lastDenom (baud.toNat * 1625) : Nat) / 1625 : ℚ) := by
  rw [rate_eq port baud (fraction_of_documented port baud h), toNat_nom_of_documented baud h]
  have hdiv : ((baud.toNat * 1625 / lastDenom (baud.toNat * 1625) * lastDenom (baud.toNat * 1625) :
      Nat) : ℚ) + (baud.toNat * 1625 % lastDenom (baud.toNat * 1625) : Nat) =
        baud.toNat * 1625 := by
    exact_mod_cast Nat.div_add_mod' _ _
  linarith

/-- The rate is within 3 percent exactly when the remainder is. -/
theorem close_iff (h : Documented baud) :
    |(en7523SetUartBaudRate port baud).1.rate - baud.toNat| ≤ 3 / 100 * baud.toNat ↔
      100 * (13 * baud.toNat % 400) ≤ 39 * baud.toNat := by
  have hrem : 100 * (baud.toNat * 1625 % lastDenom (baud.toNat * 1625)) ≤ 4875 * baud.toNat ↔
      100 * (13 * baud.toNat % 400) ≤ 39 * baud.toNat := by
    rcases lastDenom_cases (baud.toNat * 1625) with ⟨hd, -⟩ | ⟨hd, hq, -⟩ | ⟨hd, hq⟩ <;> rw [hd]
    · have hten : baud.toNat * 1625 % 50000 = 125 * (13 * baud.toNat % 400) := by
        rw [← Nat.mul_mod_mul_left]
        congr 1
        omega
      omega
    -- with a smaller divider the rate is so high that no remainder matters
    · constructor <;> intro <;> omega
    · constructor <;> intro <;> omega
  rw [← hrem, rate_sub port baud h, abs_neg, abs_of_nonneg (by positivity)]
  generalize baud.toNat * 1625 % lastDenom (baud.toNat * 1625) = r
  rw [div_le_iff₀ (by norm_num)]
  constructor
  · intro hle
    have : (100 * r : ℚ) ≤ 4875 * baud.toNat := by linarith
    exact_mod_cast this
  · intro hle
    have : (100 * r : ℚ) ≤ 4875 * baud.toNat := by exact_mod_cast hle
    linarith

/-- Every other register is as it was, and the line control register is as the port keeps it. -/
theorem setUartBaudRate_reg (offset : Nat) (hclk : offset ≠ uartXinclkdr)
    (hxyd : offset ≠ uartXyd) :
    (en7523SetUartBaudRate port baud).1.reg offset =
      if offset = uartLcr then port.lcr else port.reg offset := by
  rw [setUartBaudRate_eq]
  by_cases hlcr : offset = uartLcr
  · subst hlcr
    simp
  · simp [hlcr, hclk, hxyd]

/-! ## The result -/

/-- The rates that come out right. In the documented range those whose remainder is small, which
all have from 1024 baud on, outside of it those whose product modulo 2^32 fits the last divider. -/
def Suits (baud : BitVec 32) : Prop :=
  if Documented baud then 100 * (13 * baud.toNat % 400) ≤ 39 * baud.toNat
  else baud.toNat * 1625 % 2 ^ 32 < 1015750000

instance (baud : BitVec 32) : Decidable (Suits baud) := by
  unfold Suits
  infer_instance

theorem suits_of_high (h : Documented baud) (h1024 : 1024 ≤ baud.toNat) : Suits baud := by
  rw [Suits, if_pos h]
  omega

/-- A baud rate is programmed right exactly when it suits. -/
theorem baud_right_iff : Right port baud ↔ Suits baud := by
  by_cases h : Documented baud
  · rw [Suits, if_pos h, ← close_iff port baud h]
    constructor
    · intro hright
      exact hright.close h
    · intro hclose
      have hfrac := fraction_of_documented port baud h
      exact {
        fraction := hfrac
        noOverflow := fun _ => noOverflow_of_documented baud h
        nonzero := fun _ => nonzero_of_documented port baud h
        fits := fun _ => by
          rw [← hfrac.1]
          exact BitVec.isLt _
        close := fun _ => hclose }
  · rw [Suits, if_neg h, ← fraction_iff port]
    constructor
    · intro hright
      exact hright.fraction
    · intro hfrac
      exact {
        fraction := hfrac
        noOverflow := fun hd => absurd hd h
        nonzero := fun hd => absurd hd h
        fits := fun hd => absurd hd h
        close := fun hd => absurd hd h }

/-- A port at reset. -/
def resetPort : UartPort where
  lcr := 0x03#32
  reg := fun _ => 0#32
  latch := fun _ => 0#32

/-- At 110 baud the rate is 1200 / 13, 16 percent below, and at 921600 no divider fits. -/
theorem not_baud_right : ¬ Right resetPort 110#32 ∧ ¬ Right resetPort 921600#32 := by
  rw [baud_right_iff, baud_right_iff]
  decide

end Airoha.Uart.Baud
