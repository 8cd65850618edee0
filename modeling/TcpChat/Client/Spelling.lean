import TcpChat.Client.Address

/-! Which texts are addresses: `is_valid_ip4` and the constructors accept the same. -/
namespace TcpChat

def isValidIp4 (ip : List Byte) : Bool := (inetPton (ChatClient.cStr ip)).isSome

namespace ChatClient

theorem stored_injective {q q' : Quad} (same : stored q = stored q') : q = q' := by
  have bytes := addressBytes_stored q {}
  have bytes' := addressBytes_stored q' {}
  have eq : (stored q).toSockaddr.addressBytes = (stored q').toSockaddr.addressBytes := by rw [same]
  obtain ⟨a, b, c, d⟩ := q
  obtain ⟨a', b', c', d'⟩ := q'
  obtain ⟨rfl, rfl, rfl, rfl⟩ := Quad.mk.inj (bytes.symm.trans (eq.trans bytes'))
  rfl

theorem ofAddress_cases (ip : List Byte) (c : ChatClient) :
    (∃ q : Quad, cStr ip = q.dotted ∧ ofAddress ip c =
      ⟨{ c with address := { c.address with ipAddress := q.storeTo c.address.ipAddress } }, [],
        .returned ()⟩) ∨
    ((∀ q : Quad, cStr ip ≠ q.dotted) ∧
      ofAddress ip c = ⟨c, [], .thrown (.systemError none "inet_pton() failed")⟩) := by
  cases parsed : inetPton (cStr ip) with
  | some q => exact .inl ⟨q, inetPton_eq_some_iff.mp parsed, by simp [ofAddress, inetPtonSocket, parsed]⟩
  | none =>
    refine .inr ⟨fun q spelled => ?_, by simp [ofAddress, inetPtonSocket, parsed]⟩
    rw [inetPton_eq_some_iff.mpr spelled] at parsed
    cases parsed

theorem setName_returns (name : List Byte) (c : ChatClient) :
    (∃ c', setName name c = ⟨c', [], .returned ()⟩) ↔ name ≠ [] ∧ name.length ≤ maxNameLen := by
  by_cases empty : name = []
  · simp [setName, empty]
  · by_cases long : name.length > maxNameLen
    · simp [setName, empty, long]
    · simp [setName, empty, long, Nat.le_of_not_lt long]

/-- The valid texts are the dotted quads, up to a zero byte: four numbers from 0 to 255 without
leading zeros. They are what the constructors accept, each with one reading. -/
theorem isValidIp4_iff (ip : List Byte) :
    (isValidIp4 ip = true ↔ ∃ q : Quad, cStr ip = q.dotted) ∧
    (∀ q, construct (.address ip) {} = ⟨{ address := stored q }, [], .returned ()⟩ ↔
      cStr ip = q.dotted) ∧
    ∀ name, (∃ c, construct (.addressName ip name) {} = ⟨c, [], .returned ()⟩) ↔
      isValidIp4 ip = true ∧ name ≠ [] ∧ name.length ≤ maxNameLen := by
  have valid : isValidIp4 ip = true ↔ ∃ q : Quad, cStr ip = q.dotted := by
    rw [isValidIp4, Option.isSome_iff_exists]
    exact exists_congr fun q => inetPton_eq_some_iff
  refine ⟨valid, fun q => ?_, fun name => ?_⟩
  · rcases ofAddress_cases ip {} with ⟨q', spelled, eq⟩ | ⟨none, eq⟩
    · rw [construct, eq, spelled]
      constructor
      · intro same
        have addresses := congrArg (fun r => r.state.address) same
        have quads : q' = q := stored_injective addresses
        rw [quads]
      · intro dotted
        rw [dotted_injective dotted]
        rfl
    · rw [construct, eq]
      exact ⟨fun same => by simp at same, fun dotted => absurd dotted (none q)⟩
  · rcases ofAddress_cases ip {} with ⟨q, spelled, eq⟩ | ⟨none, eq⟩
    · have accepted : isValidIp4 ip = true := valid.mpr ⟨q, spelled⟩
      rw [construct, Program.bind_apply, eq, Program.andThen_returned_nil, setName_returns]
      simp [accepted]
    · have refused : ¬ isValidIp4 ip = true := fun accepted =>
        (valid.mp accepted).elim none
      rw [construct, Program.bind_apply, eq]
      simp [refused, Program.andThen]

example : isValidIp4 (Quad.dotted ⟨192, 168, 0, 10⟩) = true ∧
    isValidIp4 (ascii ['1', '.', '2', '.', '0', '3', '.', '4']) = false := by decide +kernel

end ChatClient
end TcpChat
