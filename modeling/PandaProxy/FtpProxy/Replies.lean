import Mathlib.Data.List.Sort
import PandaProxy.Python.Str

namespace PandaProxy.FtpProxy

open Python

def statefulCommands : List String := ["TYPE", "PBSZ", "PROT", "CWD", "CDUP"]

def preAuthCommands : List String := ["USER", "PASS", "AUTH", "FEAT", "SYST", "NOOP", "OPTS"]

def uploadCommands : List String := ["STOR", "STOU", "APPE"]

def transferCommands : List String := ["LIST", "NLST", "MLSD", "RETR", "STOR", "STOU", "APPE"]

def parsePasvReply (reply : String) : Option (String × Int) :=
  match Str.find reply '(' 0 with
  | none => none
  | some start =>
      match Str.find reply ')' (start + 1) with
      | none => none
      | some stop =>
          let parts := Str.split ',' (Str.slice reply (start + 1) stop)
          if parts.length ≠ 6 then none
          else
            match parts.mapM (fun p => Int.parse (Str.strip p)) with
            | none => none
            | some numbers =>
                if numbers.any (fun n => n < 0 || n > 255) then none
                else
                  let host := Str.join "." ((numbers.take 4).map toString)
                  let port := numbers.getD 4 0 * 256 + numbers.getD 5 0
                  if port = 0 then none else some (host, port)

def formatPasvReply (host : String) (port : Int) : String :=
  "227 Entering Passive Mode (" ++ Str.join "," (Str.split '.' host) ++ "," ++ toString (port / 256) ++
    "," ++ toString (port % 256) ++ ")\r\n"

def parseEpsvReply (reply : String) : Option Int :=
  match Str.find reply '(' 0 with
  | none => none
  | some start =>
      match Str.find reply ')' (start + 1) with
      | none => none
      | some stop =>
          match (Str.slice reply (start + 1) stop).toList with
          | delimiter :: rest =>
              if (delimiter :: rest).length < 4 then none
              else
                let fields := (delimiter :: rest).splitOn delimiter
                if fields.length < 4 then none
                else
                  match Int.parse (.ofList (fields.getD 3 [])) with
                  | none => none
                  | some port => if 1 ≤ port ∧ port ≤ 65535 then some port else none
          | [] => none

def formatEpsvReply (port : Int) : String :=
  "229 Entering Extended Passive Mode (|||" ++ toString port ++ "|)\r\n"

@[irreducible] def parseLine (line : String) : String × String :=
  let (command, argument) := Str.partition ' ' line
  (Str.upper command, Str.strip argument)

def decodeLine (raw : List UInt8) : String := Str.stripChars "\r\n" (Utf8.decode raw)

-- A reply that does not refuse the command: it is under way, done, or waits for the next one.
def positive (reply : String) : Bool :=
  Str.startswith reply "1" || Str.startswith reply "2" || Str.startswith reply "3"

def sorted (names : List String) : List String := names.insertionSort (fun a b => a ≤ b)

end PandaProxy.FtpProxy
