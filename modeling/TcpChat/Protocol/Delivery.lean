import TcpChat.Protocol.Checked

/-! The two ways to consume a buffer: into a string, and to a descriptor whose writes may stop
anywhere. -/
namespace TcpChat.Buffer

theorem cutOff_lines {delim : Byte} {ls : List (List Byte)} {tail out kept : List Byte}
    (each : ∀ l ∈ ls, Framing.Frame delim l) (absent : delim ∉ tail)
    (cut : Framing.CutOff delim (ls.flatten ++ tail) out kept) :
    ∃ (j : Nat) (inside : j < ls.length) (part : List Byte), part <+: ls[j] ∧ part ≠ ls[j] ∧
      out = (ls.take j).flatten ++ part ∧ kept = (ls.drop j).flatten ++ tail := by
  obtain ⟨before, line, after, part, split, initial, short, hs, hk⟩ := cut
  obtain ⟨lines, rest⟩ := Framing.frames_flatten each absent
  rw [rest] at hk
  have whole : ls = before ++ line :: after := lines.symm.trans split
  subst whole
  have here : (before ++ line :: after)[before.length]? = some line := by simp
  obtain ⟨inside, at_line⟩ := List.getElem?_eq_some_iff.mp here
  refine ⟨before.length, inside, part, ?_, ?_, ?_, ?_⟩
  · rw [at_line]; exact initial
  · rw [at_line]; exact short
  · rw [hs, List.take_left]
  · rw [hk, List.drop_left]

/-- If the descriptor path returns, it wrote what the string path returns and left the same. If it
throws, whole lines and a proper part of the next one went out, and all from that line on is
still in the buffer. -/
theorem consumeFullFd_agrees (fd : Fd) {b : Buffer} (valid : b.Valid) (delim : Byte)
    (answers : List WriteAnswer) :
    let r := Checked.consumeFullFd fd delim answers b
    (∀ rest, r.outcome = .returned rest →
      (Checked.consumeFull delim b).outcome = .returned (sent fd r.events) ∧
        r.state.content = (Checked.consumeFull delim b).state.content) ∧
    (∀ x, r.outcome = .thrown x → ∀ (ls : List (List Byte)) (tail : List Byte),
      (∀ l ∈ ls, Framing.Frame delim l) → delim ∉ tail → b.content = ls.flatten ++ tail →
      ∃ (j : Nat) (inside : j < ls.length) (part : List Byte), part <+: ls[j] ∧ part ≠ ls[j] ∧
        sent fd r.events = (ls.take j).flatten ++ part ∧
        r.state.content = (ls.drop j).flatten ++ tail) := by
  intro r
  obtain ⟨b', log, _, _, ends⟩ := consumeFullFd_spec fd valid delim answers
  obtain ⟨b'', string, _, left⟩ := consumeFull_spec valid delim
  have same : r = consumeFullFd fd delim answers b := Checked.consumeFullFd_eq fd valid delim answers
  rw [Checked.consumeFull_eq valid, string]
  rcases ends with ⟨rest, _, eq, all, kept⟩ | ⟨_, cut, stuck⟩
  · rw [same, eq]
    refine ⟨fun _ _ => ⟨by rw [all], by rw [kept, left]⟩, fun x thrown => ?_⟩
    cases thrown
  · constructor
    · intro rest returned
      rcases stuck with eq | ⟨errno, eq⟩
      · rw [same, eq] at returned; cases returned
      · rw [same, eq] at returned; cases returned
    · intro x thrown ls tail each absent whole
      rcases stuck with eq | ⟨errno, eq⟩
      · rw [same, eq] at thrown; cases thrown
      · rw [same, eq]
        rw [whole] at cut
        exact cutOff_lines each absent cut

def twoLines : List (List Byte) := [[97, 10], [98, 99, 10]]

/-- The two lines and a tail. -/
def twoLinesBuffer : Buffer := ⟨zeroed.write 0 (twoLines.flatten ++ [100]), 6⟩

/-- The descriptor takes the first line and one byte of the second, and fails. -/
theorem second_line_cut_off :
    let r := Checked.consumeFullFd 7 10 [.accepted 2, .accepted 1, .failed .EPIPE] twoLinesBuffer
    ∃ (j : Nat) (inside : j < twoLines.length) (part : List Byte), part <+: twoLines[j] ∧
      part ≠ twoLines[j] ∧ sent 7 r.events = (twoLines.take j).flatten ++ part ∧
      r.state.content = (twoLines.drop j).flatten ++ [100] := by
  have valid : twoLinesBuffer.Valid := ⟨by decide, by decide⟩
  have each : ∀ l ∈ twoLines, Framing.Frame 10 l := by
    intro l member
    rcases List.mem_pair.mp member with rfl | rfl
    · exact ⟨[97], by decide, rfl⟩
    · exact ⟨[98, 99], by decide, rfl⟩
  exact (consumeFullFd_agrees 7 valid 10 [.accepted 2, .accepted 1, .failed .EPIPE]).2
    (.systemError (some .EPIPE) "write() failed") (by decide +kernel) twoLines [100]
    each (by decide) (by decide +kernel)

end TcpChat.Buffer
