import ProcCtrld.Network
import ProcCtrld.ProcessManager

/-!
# ProcCtrld.Serialize

The decoding of client requests (`receive_command`, `receive_kill` and `receive_message_from_user`
in `serialize.cpp`).

The FlatBuffers verifier is a parameter `verify`, which gives the message of an accepted buffer. A
message is what the generated accessors can see of it: every string, vector and table is optional
on the wire, a union value may be absent whatever its tag says, and tags outside the schema are
accepted (`Message.other`, `SurveillanceEvent.other`). The elements of a vector are never absent.
The accessors return pointers, so reading an absent field is a null dereference, which no `catch`
of the wrappers stops: `Fault.nullDeref`.

`decoding_agrees_iff` says exactly on which buffers the two stages agree without a null
dereference: on those that are rejected, or whose message is `Complete`.
-/

namespace ProcCtrld

/-- Table `Inotify` of the schema. -/
structure Inotify where
  rootPaths : Option String
  mask : Int
  size : Nat
deriving DecidableEq, Repr

structure TCPSocket where
  destport : Nat
deriving DecidableEq, Repr

/-- An element of `to_watch`, by the tag of its union. -/
inductive SurveillanceEvent where
  | inotify (event : Option Inotify)
  | tcpSocket (event : Option TCPSocket)
  | other (tag : Nat) (htag : tag ≠ 1 ∧ tag ≠ 2)
deriving DecidableEq, Repr

structure RunCommand where
  path : Option String
  args : Option (List String)
  envp : Option (List String)
  flags : Nat
  stackSize : Nat
  toWatch : Option (List SurveillanceEvent)
deriving DecidableEq, Repr

structure KillProcess where
  pid : Pid
deriving DecidableEq, Repr

/-- The root table of a verified buffer, by the tag of its `events` union. -/
inductive Message where
  | runCommand (events : Option RunCommand)
  | killProcess (events : Option KillProcess)
  | other (tag : Nat) (htag : tag ≠ 1 ∧ tag ≠ 2)
deriving DecidableEq, Repr

/-- The values of `enum Event` that a daemon can be sent. -/
inductive Event where
  | none
  | runCommand
  | killProcess
deriving DecidableEq, Repr

/-- `struct surveillance` with the structure its `ptr_event` points to. -/
inductive Surveillance where
  | inotify (rootPaths : String) (mask : Int) (size : Nat)
  | watchSocket (destport : Nat)
deriving DecidableEq, Repr

/-- `command`. An entry of `toWatch` is `none` when its element of `new surveillance[..]` was never
written. -/
structure Command where
  path : String
  args : List String
  envp : List String
  flags : Nat
  stackSize : Nat
  toWatch : List (Option Surveillance)
deriving DecidableEq, Repr

inductive Fault where
  | nullDeref
deriving DecidableEq, Repr

/-- `->` on a pointer. -/
def deref {α : Type} : Option α → Except Fault α
  | some a => .ok a
  | none => .error .nullDeref

/-- `strdup(s->c_str())`: a C string ends at the first NUL. -/
def cStr (s : String) : String := String.ofList (s.toList.takeWhile (· ≠ '\x00'))

def receiveSurveillance : SurveillanceEvent → Except Fault (Option Surveillance)
  | .inotify event => do
    let inotifyEvent ← deref event
    let rootPaths ← deref inotifyEvent.rootPaths
    return some (.inotify (cStr rootPaths) inotifyEvent.mask inotifyEvent.size)
  | .tcpSocket event => do
    let socketEvent ← deref event
    return some (.watchSocket socketEvent.destport)
  -- `default: break;`
  | .other _ _ => return none

def receiveSurveillances : List SurveillanceEvent → Except Fault (List (Option Surveillance))
  | [] => return []
  | w :: ws => do
    let e ← receiveSurveillance w
    let es ← receiveSurveillances ws
    return e :: es

def receiveRunCommand (events : Option RunCommand) : Except Fault Command := do
  let runCommand ← deref events
  let path ← deref runCommand.path
  let args ← deref runCommand.args
  let envp ← deref runCommand.envp
  -- `to_watch` is the one field that is tested for null
  let toWatch ← receiveSurveillances (runCommand.toWatch.getD [])
  return ⟨cStr path, args.map cStr, envp.map cStr, runCommand.flags, runCommand.stackSize, toWatch⟩

section Receive

variable (verify : Bytes → Int → Option Message) (buffer : Option Bytes) (size : Int)

/-- The common prologue: a null buffer, a size that is not positive and a buffer the verifier
refuses have no message. -/
def getMessage : Option Message :=
  match buffer with
  | none => none
  | some b => if size ≤ 0 then none else verify b size

/-- `receive_command`; `ok none` is the result `nullptr`. -/
def receiveCommand : Except Fault (Option Command) :=
  match getMessage verify buffer size with
  | some (.runCommand events) => do
    let command ← receiveRunCommand events
    return some command
  | _ => return none

/-- `receive_kill`, which returns -1 when there is nothing to decode. -/
def receiveKill : Except Fault Pid :=
  match getMessage verify buffer size with
  | some (.killProcess events) => do
    let killProcess ← deref events
    return killProcess.pid
  | _ => return -1

/-- `receive_message_from_user`. -/
def receiveMessageFromUser : Event :=
  match getMessage verify buffer size with
  | some (.runCommand _) => .runCommand
  | some (.killProcess _) => .killProcess
  | _ => .none

/-- The two stages agree and no accessor result that is null is dereferenced. -/
structure DecodingAgrees : Prop where
  command : receiveMessageFromUser verify buffer size = .runCommand ↔
    ∃ c, receiveCommand verify buffer size = .ok (some c) ∧ ∀ w ∈ c.toWatch, w.isSome
  rejects : receiveMessageFromUser verify buffer size ≠ .runCommand →
    receiveCommand verify buffer size = .ok none
  commandTotal : ∀ f, receiveCommand verify buffer size ≠ .error f
  killTotal : ∀ f, receiveKill verify buffer size ≠ .error f

end Receive

/-- The tag is one of the schema and what the code reads of the entry is present. -/
def SurveillanceEvent.Complete : SurveillanceEvent → Prop
  | .inotify event => ∃ t, event = some t ∧ t.rootPaths.isSome
  | .tcpSocket event => event.isSome
  | .other _ _ => False

def RunCommand.Complete (r : RunCommand) : Prop :=
  r.path.isSome ∧ r.args.isSome ∧ r.envp.isSome ∧ ∀ w ∈ r.toWatch.getD [], w.Complete

/-- The union value is present, and a command has its path, args, envp and only complete entries. -/
def Message.Complete : Message → Prop
  | .runCommand events => ∃ r, events = some r ∧ r.Complete
  | .killProcess events => events.isSome
  | .other _ _ => True

theorem deref_eq_ok {α : Type} {p : Option α} {a : α} : deref p = .ok a ↔ p = some a := by
  cases p <;> simp [deref]

theorem bind_eq_ok {ε α β : Type} {x : Except ε α} {f : α → Except ε β} {b : β} :
    (x >>= f) = .ok b ↔ ∃ a, x = .ok a ∧ f a = .ok b := by
  cases x <;> simp [bind, Except.bind]

theorem pure_eq_ok {ε α : Type} {a b : α} : (pure a : Except ε α) = .ok b ↔ a = b := by
  simp [pure, Except.pure]

theorem receiveSurveillance_iff (w : SurveillanceEvent) :
    (∃ e, receiveSurveillance w = .ok (some e)) ↔ w.Complete := by
  cases w with
  | inotify event =>
    simp only [receiveSurveillance, bind_eq_ok, deref_eq_ok, pure_eq_ok, Option.some.injEq,
      SurveillanceEvent.Complete, Option.isSome_iff_exists]
    constructor
    · rintro ⟨_, t, rfl, p, hp, rfl⟩
      exact ⟨t, rfl, p, hp⟩
    · rintro ⟨t, rfl, p, hp⟩
      exact ⟨_, t, rfl, p, hp, rfl⟩
  | tcpSocket event =>
    simp only [receiveSurveillance, bind_eq_ok, deref_eq_ok, pure_eq_ok, Option.some.injEq,
      SurveillanceEvent.Complete, Option.isSome_iff_exists]
    constructor
    · rintro ⟨_, t, ht, rfl⟩
      exact ⟨t, ht⟩
    · rintro ⟨t, ht⟩
      exact ⟨_, t, ht, rfl⟩
  | other tag htag => simp [receiveSurveillance, SurveillanceEvent.Complete, pure_eq_ok]

theorem receiveSurveillances_iff (ws : List SurveillanceEvent) :
    (∃ es, receiveSurveillances ws = .ok es ∧ ∀ e ∈ es, e.isSome) ↔ ∀ w ∈ ws, w.Complete := by
  induction ws with
  | nil => simp [receiveSurveillances, pure_eq_ok]
  | cons w ws ih =>
    rw [List.forall_mem_cons, ← receiveSurveillance_iff, ← ih]
    simp only [receiveSurveillances, bind_eq_ok, pure_eq_ok]
    constructor
    · rintro ⟨_, ⟨e, he, es, hes, rfl⟩, hall⟩
      obtain ⟨hsome, hrest⟩ := List.forall_mem_cons.mp hall
      obtain ⟨e', rfl⟩ := Option.isSome_iff_exists.mp hsome
      exact ⟨⟨e', he⟩, es, hes, hrest⟩
    · rintro ⟨⟨e, he⟩, es, hes, hrest⟩
      exact ⟨_, ⟨some e, he, es, hes, rfl⟩, List.forall_mem_cons.mpr ⟨rfl, hrest⟩⟩

theorem receiveRunCommand_iff (events : Option RunCommand) :
    (∃ c, receiveRunCommand events = .ok c ∧ ∀ w ∈ c.toWatch, w.isSome) ↔
      ∃ r, events = some r ∧ r.Complete := by
  simp only [receiveRunCommand, bind_eq_ok, deref_eq_ok, pure_eq_ok, RunCommand.Complete,
    Option.isSome_iff_exists, ← receiveSurveillances_iff]
  constructor
  · rintro ⟨_, ⟨r, hr, path, hpath, args, hargs, envp, henvp, ws, hws, rfl⟩, hall⟩
    exact ⟨r, hr, ⟨path, hpath⟩, ⟨args, hargs⟩, ⟨envp, henvp⟩, ws, hws, hall⟩
  · rintro ⟨r, hr, ⟨path, hpath⟩, ⟨args, hargs⟩, ⟨envp, henvp⟩, ws, hws, hall⟩
    exact ⟨_, ⟨r, hr, path, hpath, args, hargs, envp, henvp, ws, hws, rfl⟩, hall⟩

section Decoding

variable {verify : Bytes → Int → Option Message} {buffer : Option Bytes} {size : Int}

theorem decodingAgrees_runCommand {events : Option RunCommand}
    (hm : getMessage verify buffer size = some (.runCommand events)) :
    DecodingAgrees verify buffer size ↔ Message.Complete (.runCommand events) := by
  have hcmd : receiveCommand verify buffer size =
      (receiveRunCommand events >>= fun c => pure (some c)) := by
    simp only [receiveCommand, hm]
  have hiff : (∃ c, receiveCommand verify buffer size = .ok (some c) ∧ ∀ w ∈ c.toWatch, w.isSome) ↔
      Message.Complete (.runCommand events) := by
    simp only [hcmd, bind_eq_ok, pure_eq_ok, Option.some.injEq, exists_eq_right, Message.Complete]
    exact receiveRunCommand_iff events
  have hmsg : receiveMessageFromUser verify buffer size = .runCommand := by
    simp only [receiveMessageFromUser, hm]
  constructor
  · intro h
    exact hiff.mp (h.command.mp hmsg)
  · intro h
    obtain ⟨c, hc, hall⟩ := hiff.mpr h
    refine ⟨iff_of_true hmsg ⟨c, hc, hall⟩, fun hne => absurd hmsg hne, fun f hf => ?_, fun f => ?_⟩
    · rw [hc] at hf; cases hf
    · simp [receiveKill, hm, pure, Except.pure]

theorem decodingAgrees_killProcess {events : Option KillProcess}
    (hm : getMessage verify buffer size = some (.killProcess events)) :
    DecodingAgrees verify buffer size ↔ Message.Complete (.killProcess events) := by
  have hkill : receiveKill verify buffer size = (deref events >>= fun k => pure k.pid) := by
    simp only [receiveKill, hm]
  have hcmd : receiveCommand verify buffer size = .ok none := by
    simp only [receiveCommand, hm, pure, Except.pure]
  have hmsg : receiveMessageFromUser verify buffer size = .killProcess := by
    simp only [receiveMessageFromUser, hm]
  constructor
  · intro h
    cases events with
    | none => exact absurd hkill (h.killTotal _)
    | some k => rfl
  · intro h
    obtain ⟨k, rfl⟩ := Option.isSome_iff_exists.mp h
    refine ⟨?_, fun _ => hcmd, fun f => ?_, fun f => ?_⟩
    · simp [hmsg, hcmd]
    · simp [hcmd]
    · rw [hkill]; simp [deref, bind, Except.bind, pure, Except.pure]

end Decoding

/-- The stages agree exactly on the buffers that are rejected or hold a complete message. -/
theorem decoding_agrees_iff (verify : Bytes → Int → Option Message) (buffer : Option Bytes)
    (size : Int) :
    DecodingAgrees verify buffer size ↔
      ∀ m, getMessage verify buffer size = some m → m.Complete := by
  cases hm : getMessage verify buffer size with
  | none =>
    simp only [reduceCtorEq, false_implies, implies_true, iff_true]
    refine ⟨?_, ?_, ?_, ?_⟩ <;>
      simp [receiveMessageFromUser, receiveCommand, receiveKill, hm, pure, Except.pure]
  | some m =>
    simp only [Option.some.injEq, forall_eq']
    cases m with
    | runCommand events => exact decodingAgrees_runCommand hm
    | killProcess events => exact decodingAgrees_killProcess hm
    | other tag htag =>
      refine iff_of_true ⟨?_, ?_, ?_, ?_⟩ trivial <;>
        simp [receiveMessageFromUser, receiveCommand, receiveKill, hm, pure, Except.pure]

/-- A FlatBuffer with `events_type` 1 and an empty `RunCommand` table. -/
def emptyRunCommand : Bytes :=
  [0x0C, 0, 0, 0, 0x08, 0, 0x0C, 0, 0x08, 0, 0x04, 0, 0x08, 0, 0, 0,
   0x0C, 0, 0, 0, 0x01, 0, 0, 0, 0x04, 0, 0x04, 0, 0x04, 0, 0, 0]

/-- What the verifier makes of `emptyRunCommand`. -/
def verifyEmpty (b : Bytes) (n : Int) : Option Message :=
  if b = emptyRunCommand ∧ n = 32 then some (.runCommand (some ⟨none, none, none, 0, 0, none⟩)) else none

theorem empty_run_command_derefs_null :
    receiveMessageFromUser verifyEmpty (some emptyRunCommand) 32 = .runCommand ∧
      receiveCommand verifyEmpty (some emptyRunCommand) 32 = .error .nullDeref ∧
      ¬ DecodingAgrees verifyEmpty (some emptyRunCommand) 32 := by
  refine ⟨rfl, rfl, fun h => h.commandTotal .nullDeref rfl⟩

end ProcCtrld
