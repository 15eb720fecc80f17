import NorFlash.Proofs.Conduct
import NorFlash.Proofs.ScanRecord

/-!
Properties of what the driver knows, whatever its bus answers. Accesses to the part leave the
knowledge of the driver alone, and requests change of it no more than the die and the bank.
-/
namespace NorFlash.Driver

variable {β α : Type} {P : DriverState → Prop}

/-- What the driver knows has this property. -/
def Retains (P : DriverState → Prop) (d : Driver β) : Prop :=
  P d.state

theorem retains_of_knows {x : Action β α} (h : ∀ state, Keeps (Knows state) x) :
    Keeps (Retains P) x := by
  intro d hd
  rcases h d.state d rfl with ⟨value, d', hx, hd'⟩ | ⟨cause, d', hx, hd'⟩
  · exact .inl ⟨value, d', hx, by rwa [Retains, hd']⟩
  · exact .inr ⟨cause, d', hx, by rwa [Retains, hd']⟩

/-- A property that depends neither on the die nor on the bank that is selected. -/
structure Steadfast (P : DriverState → Prop) : Prop where
  routed {state : DriverState} (upper : Bool) : P state → P { state with upper }
  banked {state : DriverState} {bank : BankRegister} (current : UInt8) :
    state.bank = some bank → P state → P { state with bank := some { bank with current } }

variable [SpiBus β]

theorem knows_writeConfig {state : DriverState} (config : UInt8) :
    Keeps (Knows state) (writeConfig config : Action β Unit) :=
  (knows_readRegister _).bind fun _ => knows_write _ _

theorem knows_readBank {state : DriverState} :
    Keeps (Knows state) (readBank : Action β (Option UInt8)) := by
  refine knows_getState.bind fun known => ?_
  cases known.bank with
  | none => exact .pure _
  | some bank => exact (knows_receive _ _).bind fun _ => .pure _

theorem retains_prepare {part : Part}
    (hlaid : ∀ state, P state → P { state with geometry := some (.derive part state.settings) })
    (hrecorded : ∀ state bank, P state → P { state with bank := some bank }) :
    Keeps (Retains P) (prepare part : Action β Geometry) :=
  .prepare (retains_of_knows fun _ => knows_write _ _)
    (.equip (fun d hd => hlaid d.state hd) (retains_of_knows fun _ => knows_enableQuad part)
      (.setUpAddressing (retains_of_knows fun _ => knows_onBus _)
        (retains_of_knows fun _ => knows_modifyBus _)
        (fun _ => retains_of_knows fun _ => knows_receive _ _)
        (fun d bank hd => hrecorded d.state bank hd) part))

theorem retains_scan
    (hcleared : ∀ state lifecycle, P state →
      P { state with lifecycle, geometry := none, bank := none })
    (hready : ∀ state, P state → P { state with lifecycle := .ready })
    (hlaid : ∀ part state, P state →
      P { state with geometry := some (.derive part state.settings) })
    (hrecorded : ∀ state bank, P state → P { state with bank := some bank }) :
    Keeps (Retains P) (scan : Action β Geometry) :=
  .scan (fun d lifecycle hd => hcleared d.state lifecycle hd) (fun d hd => hready d.state hd)
    (.identify (retains_of_knows fun _ => knows_onBus _) _)
    fun part => retains_prepare (hlaid part) hrecorded

section Requests

variable (hP : Steadfast P)
include hP

theorem retains_selectBank (g : Geometry) (address : Nat) :
    Keeps (Retains P) (selectBank g address : Action β Unit) := by
  intro d hd
  unfold selectBank
  rw [bind_of_ok (getState_eq d)]
  cases hbank : d.state.bank with
  | none => exact .inl ⟨(), d, rfl, hd⟩
  | some bank =>
    dsimp only
    split
    · exact .inl ⟨(), d, rfl, hd⟩
    · let value := UInt8.ofNat (g.bankOf address)
      let selected : DriverState → DriverState :=
        fun state => { state with bank := some { bank with current := value } }
      rcases knows_write (.ofOpcode bank.writeCommand.byte) (some (Bytes.ofList [value])) d rfl with
        ⟨_, d', hwrite, hd'⟩ | ⟨cause, d', hwrite, hd'⟩
      · refine .inl ⟨(), ⟨d'.bus, selected d'.state⟩, bind_of_ok hwrite _, ?_⟩
        have hsame : d'.state = d.state := hd'
        rw [Retains, hsame]
        exact hP.banked value hbank hd
      · refine .inr ⟨cause, d', bind_of_error hwrite _, ?_⟩
        have hsame : d'.state = d.state := hd'
        rw [Retains, hsame]
        exact hd

theorem retains_call (call : Call) : Keeps (Retains P) (call.perform : Action β Unit) := by
  have hvisit (g : Geometry) (position : Nat) :
      Keeps (Retains P) (visit g position : Action β Nat) :=
    .visit (fun _ => retains_of_knows fun _ => knows_modifyBus _)
      (fun _ upper hd => hP.routed upper hd) (retains_selectBank hP) g position
  have hwrite (frame : Frame) (payload : Option ByteArray) :
      Keeps (Retains P) (write frame payload : Action β Unit) :=
    retains_of_knows fun _ => knows_write frame payload
  cases call with
  | read offset length =>
    exact (Keeps.read hvisit (fun _ _ _ _ => retains_of_knows fun _ => knows_receive _ _)
      offset length).bind fun _ => .pure _
  | program offset data => exact .program hvisit hwrite offset data
  | erase offset length => exact .erase hvisit hwrite offset length

end Requests

end NorFlash.Driver
