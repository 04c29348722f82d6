import EventBus.Table

/-!
# Event logs

An ordered log of entries that handlers write. Several handles may share one log: what one
writes, the others read.
-/

namespace EventBus

structure EventLog where
  entries : List String

namespace EventLog

def empty : EventLog := ⟨[]⟩

instance : Inhabited EventLog := ⟨empty⟩

def push (l : EventLog) (entry : String) : EventLog := ⟨l.entries ++ [entry]⟩

def size (l : EventLog) : Nat := l.entries.length

def isEmpty (l : EventLog) : Bool := l.entries.isEmpty

def countOf (l : EventLog) (entry : String) : Nat := l.entries.count entry

end EventLog

/-- Logs behind handles. A handle that was never shared has a log of its own. -/
structure SharedLogs where
  shared : Table Nat Nat
  logs : Table Nat EventLog

namespace SharedLogs

def empty : SharedLogs := ⟨.empty, .empty⟩

def target (l : SharedLogs) (handle : Nat) : Nat := (l.shared.get? handle).getD handle

def read (l : SharedLogs) (handle : Nat) : EventLog :=
  (l.logs.get? (l.target handle)).getD default

def push (l : SharedLogs) (handle : Nat) (entry : String) : SharedLogs :=
  { l with logs := l.logs.set (l.target handle) ((l.read handle).push entry) }

def share (l : SharedLogs) (handle copy : Nat) : SharedLogs :=
  { l with shared := l.shared.set copy (l.target handle) }

end SharedLogs
end EventBus
