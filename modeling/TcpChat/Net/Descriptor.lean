import TcpChat.Lib.Ledger
import TcpChat.Net.Socket

/-! What the owners of descriptors hold, and the events that open and close descriptors. -/
namespace TcpChat

def Event.gets : Event → Option Fd
  | .socket fd | .signalfd fd | .accept fd => some fd
  | _ => none

def Event.frees : Event → Option Fd
  | .close fd => some fd
  | _ => none

namespace ScopedFileDescriptor

/-- Move construction: the new object, and what it leaves of the other. -/
def moveConstruct (other : ScopedFileDescriptor) : ScopedFileDescriptor × ScopedFileDescriptor :=
  (⟨other.fd_⟩, ⟨-1⟩)

def release (d : ScopedFileDescriptor) : ScopedFileDescriptor × Fd := (⟨-1⟩, d.fd_)

def held (d : ScopedFileDescriptor) : List Fd := if d.valid then [d.get] else []

theorem closing_eq (d : ScopedFileDescriptor) : d.closing = d.held.map Event.close := by
  by_cases open_ : d.fd_ ≥ 0
  · simp [closing, held, valid, get, open_]
  · simp [closing, held, valid, open_]

theorem held_of_valid {d : ScopedFileDescriptor} (valid : d.valid = true) : d.held = [d.get] := by
  simp [held, valid]

theorem held_of_invalid {d : ScopedFileDescriptor} (invalid : d.valid = false) : d.held = [] := by
  simp [held, invalid]

end ScopedFileDescriptor

end TcpChat
