import Gatehouse.Daemon
import Gatehouse.Login
import Gatehouse.Settings.Environment
import Gatehouse.Text.Quoted

/-! # The command line

The program either serves clients until it is stopped, or checks one tunnel login and exits with
the verdict. The login's user and remote host come from the environment and its token is the
first line of the input. -/

namespace Gatehouse

/-- What the program is asked to do. -/
inductive Mode
  | serve
  | login
  deriving DecidableEq, Repr

namespace Mode

/-- The mode that the arguments name. Without any the program serves; it gives back a name of no
mode, and looks at the first argument only. -/
def ofArguments : List String → Except String Mode
  | [] => .ok .serve
  | name :: _ =>
      if name = "serve" then .ok .serve
      else if name = "pam-auth" then .ok .login
      else .error name

end Mode

/-- What a run of the program is given: its arguments, environment and input, the files, the time
in seconds, and the key drawn for a daemon. -/
structure Invocation where
  arguments : List String
  environment : Environment
  input : Bytes
  files : Files
  clock : UInt64
  key : String

/-- What becomes of a run: it ends with a code and a report to the operator, or it goes on as a
daemon. -/
inductive Outcome
  | ended (code : Nat) (report : String)
  | serving (d : Daemon)

namespace Outcome

/-- The lines that list causes. One alone has no number. -/
def causeLines : List String → List String
  | [cause] => ["    " ++ cause]
  | causes => causes.mapIdx fun i cause => "    " ++ Decimal.text i ++ ": " ++ cause

/-- The report of a failure, with what caused it. -/
def report (failure : String) (causes : List String) : String :=
  "Error: " ++ failure ++ "\n" ++
    (if causes.isEmpty then "" else
      "\nCaused by:\n" ++ String.join ((causeLines causes).map (· ++ "\n")))

/-- A run that fails with a code. -/
def failure (code : Nat) : List String → Outcome
  | [] => .ended code ""
  | message :: causes => .ended code (report message causes)

/-- The failure of a run in a mode that there is not. -/
def unknownMode (name : String) : Outcome :=
  failure 1 ["unknown mode " ++ Quoted.quote name ++ ", expected serve or pam-auth"]

end Outcome

namespace LoginAnswer

/-- The exit code that tells the verdict. -/
def code : LoginAnswer → Nat
  | .session _ _ => 0
  | .legacy => 0
  | .refused _ => 1
  | .brokenOff => 101

end LoginAnswer

namespace Settings

/-- The settings of a run. A settings file is written where there is none, and the defaults stand
in for settings that cannot be used. -/
def obtain (e : Environment) (files : Files) : Settings × Files :=
  let written := match writeDefaults e files with
    | .ok f => f
    | .error _ => files
  match load e written with
  | .ok s => (s, written)
  | .error _ => (e.defaults, written)

end Settings

namespace Invocation

/-- The variables of the environment that tell of a login. -/
def names : List String := ["PAM_USER", "PAM_RHOST"]

/-- The first line of some bytes, with its end. -/
def firstLine (b : Bytes) : Bytes :=
  let line := b.takeWhile (fun x => x != 10)
  line ++ (b.drop line.length).take 1

/-- Check the login that a run is about. -/
def login (r : Invocation) (s : Settings) (files : Files) : Outcome × Files :=
  match r.environment.get? "PAM_USER", Utf8.decode? (firstLine r.input) with
  | some user, some token =>
      match s.openStore files with
      | .error _ => (.ended 1 "", files)
      | .ok (store, opened) =>
          let remote := (r.environment.get? "PAM_RHOST").bind Address.parse?
          let desk : Desk := { store := store, timer := { clock := r.clock.toNat * 1000 } }
          let (answer, left) :=
            (Gate.ofSettings s).authenticate user token remote r.clock desk
          (.ended answer.code "", left.store.save opened s.sessions.databasePath)
  | _, _ => (.ended 1 "", files)

/-- Start the daemon of a run, which goes on if the daemon does. -/
def serve (r : Invocation) (s : Settings) (files : Files) : Outcome × Files :=
  match Daemon.start s files r.clock r.key with
  | (.error f, left) => (Outcome.failure f.code f.causes, left)
  | (.ok d, left) => (if d.lasts then .serving d else .ended 0 "", left)

/-- Carry out a run, giving its outcome and the files that it leaves. -/
def run (r : Invocation) : Outcome × Files :=
  match Mode.ofArguments r.arguments with
  | .error name => (Outcome.unknownMode name, r.files)
  | .ok mode =>
      let (s, files) := Settings.obtain r.environment r.files
      match mode with
      | .serve => r.serve s files
      | .login => r.login s files

end Invocation

end Gatehouse
