import Mathlib.Logic.Function.Basic
import PandaProxy.FtpProxy.LineBytes
import PandaProxy.FtpProxy.Surroundings

namespace PandaProxy.FtpProxy

open Python

def modeCommands : List String := ["PBSZ", "PROT", "TYPE"]

-- What a client can set on an FTP server; a mode that was never set has the server's default.
structure Settings where
  mode : String → Option String
  dir : List Component

namespace Settings

def initial : Settings := ⟨fun _ => none, []⟩

def apply (x : Settings) (command argument : String) : Settings :=
  if command = "CWD" then { x with dir := PosixPath.resolve x.dir argument.toList }
  else if command = "CDUP" then { x with dir := PosixPath.resolve x.dir "..".toList }
  else if command ∈ modeCommands then { x with mode := Function.update x.mode command (some argument) }
  else x

theorem apply_other {command : String} (h : command ∉ statefulCommands) (x : Settings)
    (argument : String) : x.apply command argument = x := by
  simp only [statefulCommands, List.mem_cons, List.not_mem_nil, or_false, not_or] at h
  obtain ⟨h1, h2, h3, h4, h5⟩ := h
  simp [apply, modeCommands, h1, h2, h3, h4, h5]

theorem apply_mode {command : String} (h : command ∈ modeCommands) (x : Settings) (argument : String) :
    x.apply command argument = { x with mode := Function.update x.mode command (some argument) } := by
  have hne : command ≠ "CWD" ∧ command ≠ "CDUP" := by
    constructor
    all_goals
      rintro rfl
      revert h
      decide
  simp [apply, hne.1, hne.2, h]

theorem apply_cwd (x : Settings) (argument : String) :
    x.apply "CWD" argument = { x with dir := PosixPath.resolve x.dir argument.toList } := rfl

theorem apply_cdup (x : Settings) (argument : String) :
    x.apply "CDUP" argument = { x with dir := PosixPath.resolve x.dir "..".toList } := rfl

structure Alike (x y : Settings) : Prop where
  modes : ∀ name ∈ modeCommands, x.mode name = y.mode name
  dir : x.dir = y.dir

theorem alike_iff {x y : Settings} : (∀ name ∈ modeCommands, x.mode name = y.mode name) ∧ x.dir = y.dir ↔ x.Alike y :=
  ⟨fun h => ⟨h.1, h.2⟩, fun h => ⟨h.modes, h.dir⟩⟩

instance (x y : Settings) : Decidable (x.Alike y) := decidable_of_iff _ alike_iff

end Settings

namespace Request

def command : Request → String
  | forward command _ _ => command
  | issue command _ => command

end Request

def accepted (reply : Option String) : Bool := reply.any (fun r => Str.startswith r "2")

def absoluteCwd (command argument : String) : Bool :=
  command == "CWD" && Str.startswith argument "/"

def relativeCwd (command argument : String) : Bool :=
  command == "CDUP" || (command == "CWD" && !Str.startswith argument "/")

-- The settings of the printer's session and those the client was told of, as the log has them: as
-- the client wrote them, and as the session reads them. The session is astray from the refusal of a
-- replayed CWD to the next absolute one that is accepted. The client is misled by a relative one
-- accepted meanwhile, by a session opened when the session reads a setting otherwise, and when it is
-- told that an odd line was accepted.
structure Views where
  printer : Settings
  asked : Option Request
  client : Settings
  recorded : Settings
  serving : Option (List UInt8)
  astray : Bool
  misled : Bool

namespace Views

def initial : Views := ⟨.initial, none, .initial, .initial, none, false, false⟩

def hear (v : Views) (reply : Option String) (request : Request) : Views :=
  let (command, argument) := request.said
  match request with
  | .issue _ _ =>
      if accepted reply then { v with printer := v.printer.apply command argument }
      else { v with astray := v.astray || command == "CWD" }
  | .forward _ _ _ =>
      if accepted reply then
        { v with
          printer := v.printer.apply command argument
          astray := v.astray && !absoluteCwd command argument
          misled := v.misled || (v.astray && relativeCwd command argument) }
      else v

def learn (v : Views) (raw : List UInt8) : Views :=
  let given := wireLine (decodeLine raw)
  let read := parseLine (decodeLine raw)
  { v with
    client := v.client.apply given.1 given.2
    recorded := v.recorded.apply read.1 read.2
    serving := none
    misled := v.misled || (decide (read.1 ∈ statefulCommands) && odd raw) }

def step (v : Views) : Event → Views
  | .received raw => { v with serving := some raw }
  | .told line =>
      match v.serving with
      | some raw => if Str.startswith line "2" then v.learn raw else v
      | none => v
  | .opened => { v with printer := .initial, asked := none, misled := v.misled || !decide (v.client.Alike v.recorded) }
  | .closed => v
  | .asked request _ => { v with asked := some request }
  | .answered reply =>
      match v.asked with
      | some request => { v.hear reply request with asked := none }
      | none => v
  | .examined _ => v

end Views

def views : List Event → Views
  | [] => .initial
  | v :: earlier => (views earlier).step v

end PandaProxy.FtpProxy
