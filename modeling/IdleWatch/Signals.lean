/-!
# Signals that ask for a shutdown

Two signals ask for a shutdown. One that has come stays pending until it is received, once however
often it came. When both are pending the interrupt is received first.
-/

namespace IdleWatch

/-- Why a shutdown is asked for. -/
inductive ShutdownReason where
  | interrupt
  | terminate
  deriving DecidableEq, Repr

namespace ShutdownReason

/-- The name of the signal. -/
def signal : ShutdownReason → String
  | .interrupt => "SIGINT"
  | .terminate => "SIGTERM"

/-- The name of the reason. -/
def name : ShutdownReason → String
  | .interrupt => "Interrupt"
  | .terminate => "Terminate"

/-- The reason that a signal of this name gives. -/
def ofSignal? (signal : String) : Option ShutdownReason :=
  [ShutdownReason.interrupt, .terminate].find? (·.signal = signal)

end ShutdownReason

/-- The signals that have come and are not received yet. -/
structure Signals where
  interrupt : Bool := false
  terminate : Bool := false
  deriving DecidableEq, Repr

namespace Signals

/-- A signal comes. -/
def raise (s : Signals) : ShutdownReason → Signals
  | .interrupt => { s with interrupt := true }
  | .terminate => { s with terminate := true }

/-- Receive a pending signal, if there is one. -/
def receive (s : Signals) : Signals × Option ShutdownReason :=
  if s.interrupt then ({ s with interrupt := false }, some .interrupt)
  else if s.terminate then ({ s with terminate := false }, some .terminate)
  else (s, none)

end Signals

end IdleWatch
