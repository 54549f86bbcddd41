import PandaProxy.FtpProxy.Settings

namespace PandaProxy.FtpProxy

open Python

-- The commands that leave something behind in an FTP server's session which is not replayed, and
-- those that use it up.
def effectCommands : List String :=
  ["REST", "RNFR", "RNTO", "MODE", "STRU", "XCWD", "XCUP", "CWD"] ++ transferCommands

-- What such commands have left behind: the directory moves are those since the last move to an
-- absolute directory, which is one of them unless the session records it.
structure Effects where
  restart : String
  renameFrom : Option String
  mode : String
  stru : String
  directory : List (String × String)
  deriving DecidableEq

namespace Effects

-- A new session transfers whole files, as files, in the stream mode.
def initial : Effects := ⟨"0", none, "S", "F", []⟩

def apply (x : Effects) (command argument : String) : Effects :=
  if command = "REST" then { x with restart := argument }
  else if command = "RNFR" then { x with renameFrom := some argument }
  else if command = "RNTO" then { x with renameFrom := none }
  else if command = "MODE" then { x with mode := Str.upper argument }
  else if command = "STRU" then { x with stru := Str.upper argument }
  else if command = "XCWD" ∧ Str.startswith argument "/" then { x with directory := [(command, argument)] }
  else if command ∈ ["XCWD", "XCUP"] then { x with directory := x.directory ++ [(command, argument)] }
  else if absoluteCwd command argument then { x with directory := [] }
  else if command ∈ transferCommands then { x with restart := initial.restart }
  else x

-- A server refuses to rename to a new name when it was not told the old one.
def refuses (x : Effects) (command : String) : Prop := command = "RNTO" ∧ x.renameFrom = none

structure Carries (x y : Effects) (command : String) : Prop where
  restart : command ∈ transferCommands → x.restart = y.restart
  mode : command ∈ transferCommands → x.mode = y.mode
  stru : command ∈ transferCommands → x.stru = y.stru
  directory : command ∈ transferCommands → y.directory ≠ [] → x.directory = y.directory
  rename : command = "RNTO" → ∀ a, y.renameFrom = some a → x.renameFrom = some a

theorem apply_other {command : String} (h : command ∉ effectCommands) (x : Effects) (argument : String) :
    x.apply command argument = x := by
  have hne : ∀ c ∈ effectCommands, command ≠ c := fun c hc he => h (he ▸ hc)
  have hin : command ∉ ["XCWD", "XCUP"] := by
    intro hc
    apply h
    rcases List.mem_pair.mp hc with rfl | rfl <;> decide
  have htransfer : command ∉ transferCommands := fun hc => h (List.mem_append_right _ hc)
  simp [apply, hne "REST" (by decide), hne "RNFR" (by decide), hne "RNTO" (by decide),
    hne "MODE" (by decide), hne "STRU" (by decide), hne "XCWD" (by decide), hin, absoluteCwd, hne "CWD" (by decide), htransfer]

theorem apply_initial {command : String} (h : command ∈ statefulCommands) (argument : String) :
    initial.apply command argument = initial := by
  by_cases hc : command ∈ effectCommands
  · have hcwd : command = "CWD" := by
      simp only [statefulCommands, List.mem_cons, List.not_mem_nil, or_false] at h
      revert hc
      rcases h with rfl | rfl | rfl | rfl | rfl <;> decide
    subst hcwd
    simp [apply, initial, absoluteCwd, transferCommands]
  · exact apply_other hc _ _

theorem apply_rename {x y : Effects} (h : x.renameFrom = none ∨ x.renameFrom = y.renameFrom)
    (command argument : String) : (x.apply command argument).renameFrom = none ∨
      (x.apply command argument).renameFrom = (y.apply command argument).renameFrom := by
  unfold apply
  split
  · exact h
  split
  · exact .inr rfl
  split
  · exact .inl rfl
  repeat' split
  all_goals exact h

end Effects

-- What is in force on the printer's session, what of it the client was told of while this session
-- was open, and what the client was told of at all.
structure Ledger where
  asked : Option Request
  serving : Option (String × String)
  printer : Effects
  held : Effects
  client : Effects

namespace Ledger

def initial : Ledger := ⟨none, none, .initial, .initial, .initial⟩

def step (v : Ledger) : Event → Ledger
  | .received raw => { v with serving := some (wireLine (decodeLine raw)) }
  | .told line =>
      match v.serving with
      | some (command, argument) =>
          if positive line then
            { v with
              serving := none
              held := v.held.apply command argument
              client := v.client.apply command argument }
          else v
      | none => v
  | .opened => { v with asked := none, printer := .initial, held := .initial }
  | .closed => v
  | .asked request _ => { v with asked := some request }
  | .answered reply =>
      match v.asked with
      | some request =>
          { v with
            asked := none
            printer := if reply.any positive then v.printer.apply request.said.1 request.said.2 else v.printer }
      | none => v
  | .examined _ => v

end Ledger

def ledger : List Event → Ledger
  | [] => .initial
  | v :: earlier => (ledger earlier).step v

structure Synced (v : Ledger) : Prop where
  held : v.printer = v.held
  rename : v.held.renameFrom = none ∨ v.held.renameFrom = v.client.renameFrom

theorem Synced.carries {v : Ledger} (h : Synced v) {command : String} (hr : ¬ v.printer.refuses command) :
    v.printer.Carries v.client command ↔
      (command ∈ transferCommands → v.held.Carries v.client command) := by
  rw [h.held] at hr ⊢
  constructor
  · exact fun hc _ => hc
  · intro hc
    by_cases ht : command ∈ transferCommands
    · exact hc ht
    · refine ⟨fun hin => absurd hin ht, fun hin => absurd hin ht, fun hin => absurd hin ht,
        fun hin => absurd hin ht, fun hrnto a ha => ?_⟩
      rcases h.rename with hnone | hsame
      · exact absurd ⟨hrnto, hnone⟩ hr
      · exact hsame.trans ha

end PandaProxy.FtpProxy
