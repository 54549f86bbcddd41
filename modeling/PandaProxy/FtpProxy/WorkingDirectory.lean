import PandaProxy.FtpProxy.StatefulCommands

namespace PandaProxy.FtpProxy

open Python

inductive Hop where
  | cwd (argument : String)
  | cdup
  deriving DecidableEq, Repr

namespace Hop

def command : Hop → String
  | cwd _ => "CWD"
  | cdup => "CDUP"

-- What `_handle_upstream` passes to `_record_cwd`.
def argument : Hop → String
  | cwd directory => directory
  | cdup => ".."

def record (s : ControlSession) (hop : Hop) : ControlSession := ControlSession.recordCwd hop.argument s

def move (x : Settings) (hop : Hop) : Settings := x.apply hop.command hop.argument

def walk (stack : List Component) (hop : Hop) : List Component := PosixPath.resolve stack hop.argument.toList

theorem move_dir (x : Settings) (hop : Hop) : (hop.move x).dir = hop.walk x.dir := by
  cases hop with
  | cwd directory => rfl
  | cdup => rfl

theorem foldl_move_dir (hops : List Hop) (x : Settings) : (hops.foldl move x).dir = hops.foldl walk x.dir := by
  induction hops generalizing x with
  | nil => rfl
  | cons hop hops ih => rw [List.foldl_cons, List.foldl_cons, ih, move_dir]

end Hop

variable {s : ControlSession} {hops : List Hop}

theorem foldl_record (hops : List Hop) (h : PosixPath.Normal s.cwd.toList) :
    PosixPath.Normal (hops.foldl Hop.record s).cwd.toList ∧
      PosixPath.components (hops.foldl Hop.record s).cwd.toList = hops.foldl Hop.walk (PosixPath.components s.cwd.toList) := by
  induction hops generalizing s with
  | nil => exact ⟨h, rfl⟩
  | cons hop hops ih =>
      obtain ⟨hnormal, hcomponents⟩ := recordCwd_fields h hop.argument
      rw [List.foldl_cons, List.foldl_cons, Hop.walk, ← hcomponents]
      exact ih hnormal

theorem normal_components {p : List Char} (h : PosixPath.Normal p) :
    ∀ c ∈ p.splitOn '/', c ≠ ['.'] ∧ c ≠ ['.', '.'] := by
  intro c hc
  cases c with
  | nil => exact ⟨nofun, nofun⟩
  | cons a c =>
      obtain ⟨_, hdot, hdots, _⟩ := h.2 _ (List.mem_filter.mpr ⟨hc, rfl⟩)
      exact ⟨hdot, hdots⟩

-- `_cwd` is the stack that the hops lead to, and one CWD leads there as well.
structure DirectoryTracked (hops : List Hop) (s : ControlSession) : Prop where
  absolute : Str.startswith s.cwd "/" = true
  plain : ∀ c ∈ s.cwd.toList.splitOn '/', c ≠ ['.'] ∧ c ≠ ['.', '.']
  stack : PosixPath.components s.cwd.toList = hops.foldl Hop.walk []
  reached : (Settings.initial.apply "CWD" s.cwd).dir = (hops.foldl Hop.move Settings.initial).dir
  replayed : ((Session.replayList s).foldl (fun x p => x.apply p.1 p.2) Settings.initial).dir =
    (hops.foldl Hop.move Settings.initial).dir

theorem directory_tracked (hops : List Hop) (hcwd : s.cwd = "/") : DirectoryTracked hops (hops.foldl Hop.record s) := by
  have hroot : PosixPath.Normal s.cwd.toList := by
    rw [hcwd]
    exact PosixPath.normal_root
  obtain ⟨hnormal, hcomponents⟩ := foldl_record hops hroot
  have hstack : PosixPath.components (hops.foldl Hop.record s).cwd.toList = hops.foldl Hop.walk [] := by
    rw [hcomponents, hcwd]
    rfl
  refine ⟨(startswith_slash _).trans hnormal.1, normal_components hnormal, hstack, ?_, ?_⟩
  · rw [Hop.foldl_move_dir]
    exact (PosixPath.resolve_normal hnormal []).trans hstack
  · rw [Hop.foldl_move_dir, (Session.replay_restored hnormal).dir]
    exact hstack

def detour : List Hop := [.cwd "/cache//model", .cdup, .cwd "./a/../../../b/", .cwd "", .cdup, .cdup, .cwd "sub"]

theorem directory_tracked_detour :
    DirectoryTracked detour (detour.foldl Hop.record (.init "12345678" "192.168.1.20" "192.168.1.10" none)) ∧
      (detour.foldl Hop.record (.init "12345678" "192.168.1.20" "192.168.1.10" none)).cwd = "/sub" :=
  ⟨directory_tracked detour rfl, by decide +kernel⟩

end PandaProxy.FtpProxy
