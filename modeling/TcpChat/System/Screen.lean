import TcpChat.System.Chat
import TcpChat.System.Handshake

/-! What a client prints, read back. Names without a blank end at the first blank of a line, so a
screen tells who said what as long as the server takes its lines one by one. -/
namespace TcpChat
open Machine

def blank : Byte := 32

/-- The name between the brackets, and what comes after the blank. -/
def readLine (line : List Byte) : List Byte × List Byte :=
  let head := Framing.first blank line
  ((head.drop 1).take (head.length - 4), line.drop head.length)

def readScreen (screen : List Byte) : List (List Byte × List Byte) :=
  (Framing.frames newline screen).map readLine

theorem readLine_message {name : List Byte} (solid : blank ∉ name) (text : List Byte) :
    readLine (ChatServer.message name text) = (name, text) := by
  have absent : blank ∉ ascii ['['] ++ name ++ ascii [']', ':'] := by
    have brackets : blank ∉ ascii ['['] ∧ blank ∉ ascii [']', ':'] := by decide
    simp [solid, brackets]
  have whole : ChatServer.message name text =
      ascii ['['] ++ name ++ ascii [']', ':'] ++ blank :: text := by
    simp [ChatServer.message, ascii, blank]
  rw [readLine, whole, Framing.first_header absent]
  simp [ascii]

theorem frame_message {name text : List Byte} (plain : newline ∉ name)
    (line : Framing.Frame newline text) : Framing.Frame newline (ChatServer.message name text) := by
  obtain ⟨body, absent, rfl⟩ := line
  have brackets : newline ∉ ascii ['['] ∧ newline ∉ ascii [']', ':', ' '] := by decide
  refine ⟨ascii ['['] ++ name ++ ascii [']', ':', ' '] ++ body, ?_, ?_⟩
  · simp [plain, absent, brackets]
  · simp [ChatServer.message]

def named {ι : Type} (name : ι → List Byte) (heard : List (ι × List Byte)) :
    List (List Byte × List Byte) := heard.map fun said => (name said.1, said.2)

/-- Lines that were rendered with their names are read back, each with its name. -/
theorem readScreen_rendered {ι : Type} {name : ι → List Byte} (plain : ∀ i, newline ∉ name i)
    (solid : ∀ i, blank ∉ name i) {heard : List (ι × List Byte)}
    (lines : ∀ said ∈ heard, Framing.Frame newline said.2) :
    readScreen (rendered name heard) = named name heard := by
  have each : ∀ l ∈ heard.map (fun said => ChatServer.message (name said.1) said.2),
      Framing.Frame newline l := by
    intro l member
    obtain ⟨said, inside, rfl⟩ := List.mem_map.mp member
    exact frame_message (plain said.1) (lines said inside)
  rw [readScreen, rendered, List.flatMap_def, Framing.frames_of_flatten each, List.map_map]
  exact List.map_congr_left fun said _ => readLine_message (solid said.1) said.2

theorem readScreen_mono {screen later : List Byte} (h : screen <+: later) :
    readScreen screen <+: readScreen later := (Framing.frames_mono h).map readLine

/-! Lines that the server takes one by one. -/

/-- A read with at most one line break. -/
def OneLine (e : Event) : Prop :=
  match e with
  | .read _ bytes => bytes.count newline ≤ 1
  | _ => True

instance (e : Event) : Decidable (OneLine e) :=
  match e with
  | .read _ bytes => inferInstanceAs (Decidable (bytes.count newline ≤ 1))
  | .socket _ | .signalfd _ | .bind .. | .listen .. | .connect .. | .accept _ | .close _
  | .readError .. | .write .. | .writeError .. | .print _ | .named .. | .relay .. =>
    isTrue trivial

def RelaysLine (e : Event) : Prop :=
  ∀ fd name text, e = .relay fd name text → Framing.Frame newline text

namespace ChatServer

theorem relay_of_serve {k : Kernel} {l l' : Loop} {more : List Event} {i : Nat} {c c' : ClientInfo}
    {bytes : List Byte} {tail : List Event} {control : Control} {outcome : Outcome Exn Unit}
    (serve : Serve k l l' more i c c' bytes tail control outcome) {fd : Fd} {name text : List Byte}
    (relay : .relay fd name text ∈ more) :
    text = relayText c (landed c.buffer bytes) ∧ text ≠ [] := by
  rw [serve.more] at relay
  rcases List.mem_cons.mp relay with impossible | later
  · cases impossible
  · rcases List.mem_append.mp later with named | relayed
    · unfold namedLog at named
      split at named
      · cases named
      · cases List.mem_singleton.mp named
    · rcases relayed_log serve.relayed with ⟨_, empty⟩ | ⟨some, writes, inside, eq⟩
      · rw [empty] at relayed
        cases relayed
      · rw [eq] at relayed
        rcases List.mem_cons.mp relayed with same | sent
        · cases same
          exact ⟨rfl, some⟩
        · obtain ⟨_, _, ⟨_, eq⟩ | ⟨_, eq⟩⟩ := inside _ sent
          · cases eq
          · cases eq

theorem relaysLine_step {l : Loop} {k : Kernel} (good : l.server.Good) (free : l.server.LineFree)
    (behind : LandsBehind l k) (reads : ∀ e ∈ (step l k).2, OneLine e) :
    ∀ e ∈ (step l k).2, RelaysLine e := by
  rintro _ member fd name text rfl
  rcases mute_or_serve (step_effect k l good) with mute | ⟨_, c, _, bytes, _, _, _, serve⟩
  · exact absurd (mute _ member) id
  · obtain ⟨rfl, some⟩ := relay_of_serve serve member
    have single : bytes.count newline ≤ 1 :=
      reads (.read c.fd.get bytes) (by rw [serve.more]; exact List.mem_cons_self)
    have lands : c.buffer.content ++ bytes = landed c.buffer bytes := by
      simpa only [LandsBehind, serve.reads] using behind
    have unread : newline ∉ c.buffer.content := free.content c (mem_clients serve.found)
    have part : (relayText c (landed c.buffer bytes)).Sublist (landed c.buffer bytes) :=
      (List.drop_sublist _ _).trans (Framing.complete_initial newline _).sublist
    refine Framing.frame_of_count (relayText_getLast? some) ?_
    calc (relayText c (landed c.buffer bytes)).count newline
        ≤ (landed c.buffer bytes).count newline := part.count_le newline
      _ = bytes.count newline := by
          rw [← lands, List.count_append, List.count_eq_zero.mpr unread, Nat.zero_add]
      _ ≤ 1 := single

end ChatServer

namespace Network

variable {ι : Type} [DecidableEq ι] {guest : ι → Guest}

/-- As long as no read brings more than one line, all relays are single lines. -/
structure Singly (guest : ι → Guest) (n : Network ι) (log : List (Party ι × Event)) : Prop where
  sound : Sound guest n log
  free : n.server.server.LineFree
  relays : (∀ e ∈ part none log, OneLine e) → ∀ e ∈ part none log, RelaysLine e

theorem singly_step {n : Network ι} {log : List (Party ι × Event)} (h : Singly guest n log)
    {act : Act ι} (allowed : n.Allowed guest act) :
    Singly guest (n.step guest act).1 (log ++ (n.step guest act).2) := by
  refine ⟨sound_step h.sound allowed, ?_, ?_⟩
  · cases act with
    | client i k => exact h.free
    | server next k => exact ChatServer.lineFree_step h.sound.server.good allowed.fresh h.free
  · cases act with
    | client i k =>
      rw [part_other guest n log i k (by simp)]
      exact h.relays
    | server next k =>
      rw [part_served]
      intro reads
      have old := h.relays fun e member => reads e (List.mem_append_left _ member)
      have new := ChatServer.relaysLine_step h.sound.server.good h.free allowed.behind
        fun e member => reads e (List.mem_append_right _ member)
      intro e member
      rcases List.mem_append.mp member with m | m
      · exact old e m
      · exact new e m

end Network

namespace Gathering
open Network

variable {ι : Type} [DecidableEq ι]

/-- The server's reads bring no more than one line each. -/
def OneByOne (g : Gathering ι) : Prop := ∀ e ∈ part none g.log, OneLine e

instance (g : Gathering ι) : Decidable g.OneByOne :=
  inferInstanceAs (Decidable (∀ e ∈ part none g.log, OneLine e))

theorem relaysLine (g : Gathering ι) (reads : g.OneByOne) : ∀ e ∈ part none g.log, RelaysLine e := by
  have empty : (start g.guest g.server).server.server.clients = [] := g.empty
  have free : (start g.guest g.server).server.server.LineFree := ⟨by simp [empty], by simp [empty]⟩
  have run : Singly g.guest g.final g.log := run_keeps (I := Singly g.guest)
    (fun _ _ _ h allowed => singly_step h allowed)
    ⟨sound_start g.empty, free, fun _ => nofun⟩ g.allowed
  exact run.relays reads

/-- A transcript of single lines in the order in which the clients' loops read them from stdin, with
none of these missing of a client whose connection is drained. Read back, a screen tells what its
client heard of it, and tells all of that once nothing is on its way. -/
structure Told (g : Gathering ι) (name : ι → List Byte) (transcript : List (ι × List Byte)) :
    Prop where
  lines : ∀ i, part i transcript <+: Framing.frames newline (g.typed i)
  all : ChatServer.Returns g.final.server.control → ∀ i,
    (g.final.wire i).link.stage = .inside → (g.final.wire i).up = [] →
      part i transcript = Framing.frames newline (g.typed i)
  screens : ∀ j, ∃ before during after, transcript = before ++ (during ++ after) ∧
    readScreen (g.printed j) <+: named name (Room.others j during) ∧
    (ChatServer.Returns g.final.server.control → (g.final.wire j).down = [] →
      readScreen (g.printed j) = named name (Room.others j during))

theorem frames_part {ι : Type} [DecidableEq ι] {transcript : List (ι × List Byte)}
    (lines : ∀ m ∈ transcript, Framing.Frame newline m.2) (i : ι) :
    Framing.frames newline (part i transcript).flatten = part i transcript := by
  apply Framing.frames_of_flatten
  intro l member
  obtain ⟨m, inside, rfl⟩ := List.mem_map.mp member
  exact lines m (List.mem_of_mem_filter inside)

/-- With names that have no blank, and lines that are taken one by one, there is such a transcript. -/
theorem read_back (g : Gathering ι) (solid : ∀ i, blank ∉ (g.guest i).name) (reads : g.OneByOne) :
    ∃ transcript, g.Told (fun i => (g.guest i).name) transcript := by
  obtain ⟨r, _, depicted⟩ := g.depicts
  obtain ⟨_, window, shows_⟩ := id depicted
  have lines : ∀ m ∈ r.transcript, Framing.Frame newline m.2 := by
    intro m member
    obtain ⟨fd, name, relay⟩ := shows_.relayed m member
    exact g.relaysLine reads _ relay fd name m.2 rfl
  refine ⟨r.transcript, fun i => ?_, fun returns i inside up => ?_, fun j => ?_⟩
  · rw [← frames_part lines i]
    exact Framing.frames_mono ((shows_.typed i).trans (Framing.complete_initial newline _))
  · rw [← frames_part lines i, said_all depicted returns inside up, Framing.frames_complete]
    rfl
  · obtain ⟨before, during, after, split, heard, _⟩ := (window j).stretch
    have inside : ∀ said ∈ r.heard j, Framing.Frame newline said.2 := fun said member =>
      lines said (Room.heard_subset (window j) member)
    have back : readScreen (rendered (Network.names g.guest) (r.heard j)) =
        named (Network.names g.guest) (r.heard j) :=
      readScreen_rendered (fun i => (g.guest i).plain) solid inside
    rw [heard] at back
    refine ⟨before, during, after, split, ?_, fun returns down => ?_⟩
    · have arrives := g.printed_initial depicted j
      rw [heard] at arrives
      exact back ▸ readScreen_mono arrives
    · have all := g.printed_all depicted returns down
      rw [heard] at all
      rw [all]
      exact back

end Gathering
end TcpChat
