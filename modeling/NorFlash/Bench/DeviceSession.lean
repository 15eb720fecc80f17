import NorFlash.Bench.PoolSession

/-!
A session on a single device without a pool, through a window that the steps replace.
-/
namespace NorFlash.Bench

open NorFlash.Block

inductive DeviceStep where
  | info
  | start
  | stop
  | setWindow (window : Window)
  | read (length : Nat)
  | write (bytes : ByteArray)

inductive DeviceAnswer where
  | info (kind : DeviceKind) (pageSize : Nat)
  | none
  | done
  | failed (cause : Error)
  | bytes (capacity : Nat) (bytes : ByteArray)
  | count (n : Nat)

def deviceStep {δ : Type} [Device δ] (step : DeviceStep) (state : Window × δ) :
    DeviceAnswer × (Window × δ) :=
  match step, state with
  | .info, (window, device) =>
    (.info (Device.kind device) (Device.pageSize device), (window, device))
  | .start, (window, device) =>
    match Device.start device with
    | .ok _ device => (.done, (window, device))
    | .error cause device => (.failed cause, (window, device))
  | .stop, (window, device) => (.none, (window, Device.stop device))
  | .setWindow window, (_, device) => (.none, (window, device))
  | .read length, state =>
    match Device.read length state with
    | .ok bytes state => (.bytes length bytes, state)
    | .error cause state => (.failed cause, state)
  | .write bytes, state =>
    match Device.write bytes state with
    | .ok count state => (.count count, state)
    | .error cause state => (.failed cause, state)

end NorFlash.Bench
