import Airoha.Lib.Scan
import Airoha.Bmt.Tables
import Airoha.Bmt.Driver
import Airoha.Lib.Keyed
import Airoha.Bmt.Spec
import Airoha.Bmt.Oob
import Airoha.Bmt.Remap
import Airoha.Bmt.Layout
import Airoha.Bmt.Pool
import Airoha.Bmt.Persist
import Airoha.Bmt.Reboot
import Airoha.Bmt.Crash
import Airoha.Bmt.Relocate
import Airoha.Lib.Bits
import Airoha.Qdma.Qos
import Airoha.Qdma.QosRuns
import Airoha.Lib.Ends
import Airoha.Qdma.Meter
import Airoha.Qdma.MeterSpec
import Airoha.Qdma.MeterRuns
import Airoha.Ppe.Shrink
import Airoha.Ppe.ShrinkReuse
import Airoha.Ppe.Updmem
import Airoha.Ppe.ShrinkFind
import Airoha.Ppe.ShrinkRuns
import Airoha.Lib.Frame
import Airoha.Dp.Priority
import Airoha.Lib.SlotSet
import Airoha.Ppe.L2b
import Airoha.Lib.Regmap
import Airoha.Pwm.Driver
import Airoha.Pwm.Spec
import Airoha.Pwm.Runs
import Airoha.Lib.Sweep
import Airoha.Ppe.Foe
import Airoha.Ppe.CleanMac
import Airoha.Ppe.Clean
import Airoha.Ppe.CleanTuple
import Airoha.Ppe.SetMac
import Airoha.Ppe.Egress
import Airoha.Ppe.EgressAgree
import Airoha.Qdma.Htb
import Airoha.Qdma.HtbRuns
import Airoha.Ppe.ClearEntry
import Airoha.Ppe.L4s
import Airoha.Ppe.McastMac
import Airoha.Qdma.Lan
import Airoha.Qdma.Rates
import Airoha.Qdma.TxRing
import Airoha.Qdma.TxRingRuns
import Airoha.Ppe.LroRing
import Airoha.Ppe.LroBind
import Airoha.Ppe.Loopback
import Airoha.Ppe.LoopbackBind
import Airoha.Bmt.Capacity
import Airoha.Bmt.Exhausted
import Airoha.Ppe.McastUpdate
import Airoha.Ppe.McastAgree
import Airoha.Gdm.Roles
import Airoha.Gdm.RolesRuns
import Airoha.Gdm.RolesKept
import Airoha.Fe.Retire
import Airoha.Qdma.Limits
import Airoha.Qdma.LimitsRuns
import Airoha.Qdma.MeterExact
import Airoha.Qdma.Defaults
import Airoha.Lib.Looping
import Airoha.Qdma.Acks
import Airoha.Qdma.AcksRuns
import Airoha.Ppe.LinkDown
import Airoha.Gdm.Mtu
import Airoha.Gdm.MtuRuns
import Airoha.Lib.Window
import Airoha.Lib.Csum
import Airoha.Qdma.LroSkb
import Airoha.Qdma.LroSkbRight
import Airoha.Nvmem.Adtran
import Airoha.Nvmem.AdtranRight
import Airoha.Lib.Faults
import Airoha.Pcs.Prcal
import Airoha.Pcs.PrcalRounds
import Airoha.Pcs.PrcalPath
import Airoha.Pcs.PrcalEnds
import Airoha.Pcs.PrcalKept
import Airoha.Pcs.PrcalClosest
import Airoha.Lib.Masked
import Airoha.Pcs.Config
import Airoha.Pcs.ConfigLeft
import Airoha.Uart.Baud
import Airoha.Bridge.FwdPorts
import Airoha.Lib.Bisect
import Airoha.Qdma.BucketShift
import Airoha.Lib.Record
import Airoha.Pwm.Generator
import Airoha.Pwm.Reported
import Airoha.Clk.Driver
import Airoha.Clk.Search
import Airoha.Clk.SetRate
import Airoha.Eip93.Ring
import Airoha.Eip93.RingRuns
import Airoha.Eip93.Complete
import Airoha.Eip93.Counter
import Airoha.Eip93.Hash
import Airoha.Lib.Changes
import Airoha.Link.Monitor
import Airoha.Link.MonitorRegs
