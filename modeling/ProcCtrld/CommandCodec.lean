import ProcCtrld.Schema
import Mathlib.Data.List.ReduceOption
import Mathlib.Data.List.TakeWhile

/-!
# ProcCtrld.CommandCodec

The three encoders of a `RunCommand`: `serialize_command` of `serialize.cpp`, `send_command_to_demon`
of the Python client and `serialize_run_command` of the Rust client. They store strings, vectors and
tables in different orders, and Python builds its vectors by `Prepend` calls over the reversed list.

All three build the same root, `commandValue` (`serializeCommand_builds` and its siblings), and
`receive_command` reads it back as the command: `run_command_decoded`.
-/

namespace ProcCtrld

open FlatBuffers

/-! ## The encoders -/

/-- The body of the loop over `to_watch` in `serialize_command`. -/
def serializeSurveillance : Surveillance → Build Offset
  | .inotify rootPaths mask size => do
    let eventData ← createInotify (← createString (cStr rootPaths)) mask size
    createSurveillanceEvent surveillanceInotify eventData
  | .watchSocket destport => do
    let eventData ← createTCPSocket destport
    createSurveillanceEvent surveillanceTCPSocket eventData

def serializeCommand (cmd : Command) : Build Offset := do
  let argsRefs ← cmd.args.mapM fun arg => createString (cStr arg)
  let envpRefs ← cmd.envp.mapM fun env => createString (cStr env)
  let path ← createString (cStr cmd.path)
  let args ← createVector argsRefs
  let envp ← createVector envpRefs
  -- an entry of another kind is left out: `default: continue;`
  let surveillances ← cmd.toWatch.reduceOption.mapM serializeSurveillance
  let surveillanceVector ← createVector surveillances
  let runCommand ← createRunCommand path args envp cmd.flags cmd.stackSize surveillanceVector
  createMessage .runCommand runCommand

/-- `send_command_to_demon` of `serialize.cpp`. -/
def sendCommandToDemon (bytes : Value → Bytes) (cmd : Command) : Option BufferInfo :=
  finish bytes (serializeCommand cmd)

namespace Python

/-- The body of the loop over `to_watch`. -/
def surveillance : Surveillance → Build Offset
  | .inotify rootPaths mask size => do
    let rootPathsOffset ← createString rootPaths
    let inotifyOffset ← createTable 3
      [.offset 0 rootPathsOffset, .scalar 1 .int32 mask, .scalar 2 .uint32 size]
    createTable 2 [.scalar 0 .uint8 surveillanceInotify, .offset 1 inotifyOffset]
  | .watchSocket destport => do
    let socketOffset ← createTable 1 [.scalar 0 .uint32 destport]
    createTable 2 [.scalar 0 .uint8 surveillanceTCPSocket, .offset 1 socketOffset]

def buildCommand (cmd : Command) : Build Offset := do
  let argsOffsets ← cmd.args.mapM createString
  let envpOffsets ← cmd.envp.mapM createString
  let pathOffset ← createString cmd.path
  let surveillanceOffsets ← cmd.toWatch.reduceOption.mapM surveillance
  let argsVector ← prependVector argsOffsets.length argsOffsets.reverse
  let envpVector ← prependVector envpOffsets.length envpOffsets.reverse
  let surveillanceVector ← prependVector surveillanceOffsets.length surveillanceOffsets.reverse
  let runCommand ← createTable 6
    [.offset 0 pathOffset, .offset 1 argsVector, .offset 2 envpVector, .scalar 3 .uint32 cmd.flags,
      .scalar 4 .uint32 cmd.stackSize, .offset 5 surveillanceVector]
  createTable 2 [.scalar 0 .uint8 EventType.runCommand.number, .offset 1 runCommand]

def sendCommandToDemon (bytes : Value → Bytes) (cmd : Command) : Option BufferInfo :=
  finish bytes (buildCommand cmd)

end Python

namespace Rust

/-- A `SurveillanceEvent` as the client builds it. -/
def surveillanceEvent : Surveillance → Build Offset
  | .inotify rootPaths mask size => do
    let rootPathOffset ← createString rootPaths
    let inotifyObj ← createInotify rootPathOffset mask size
    createSurveillanceEvent surveillanceInotify inotifyObj
  | .watchSocket destport => do
    let socketObj ← createTCPSocket destport
    createSurveillanceEvent surveillanceTCPSocket socketObj

/-- `serialize_run_command`; `to_watch` are offsets of the same builder. -/
def serializeRunCommand (pathCommand : String) (argsTab argsEnvs : List String) (flags stackSize : Nat)
    (toWatch : List Offset) : Build Offset := do
  let argsOffsets ← argsTab.mapM createString
  let envsOffsets ← argsEnvs.mapM createString
  let argsVector ← createVector argsOffsets
  let envsVector ← createVector envsOffsets
  let path ← createString pathCommand
  let toWatch ← createVector toWatch
  let objectRunCommand ← createRunCommand path argsVector envsVector flags stackSize toWatch
  createMessage .runCommand objectRunCommand

/-- The client: the events to watch first, then the command. -/
def buildCommand (cmd : Command) : Build Offset := do
  let toWatch ← cmd.toWatch.reduceOption.mapM surveillanceEvent
  serializeRunCommand cmd.path cmd.args cmd.envp cmd.flags cmd.stackSize toWatch

def sendCommand (bytes : Value → Bytes) (cmd : Command) : Option BufferInfo :=
  finish bytes (buildCommand cmd)

end Rust

/-! ## The commands -/

def NulFree (s : String) : Prop := '\x00' ∉ s.toList

instance (s : String) : Decidable (NulFree s) := inferInstanceAs (Decidable ('\x00' ∉ s.toList))

/-- The fields have the values that their C types can hold. -/
def Surveillance.WellFormed : Surveillance → Prop
  | .inotify rootPaths mask size =>
    NulFree rootPaths ∧ ScalarType.int32.fits mask = true ∧ ScalarType.uint32.fits size = true
  | .watchSocket destport => ScalarType.uint32.fits destport = true

structure Command.WellFormed (cmd : Command) : Prop where
  path : NulFree cmd.path
  args : ∀ s ∈ cmd.args, NulFree s
  envp : ∀ s ∈ cmd.envp, NulFree s
  flags : ScalarType.uint32.fits cmd.flags = true
  stackSize : ScalarType.uint32.fits cmd.stackSize = true
  toWatch : ∀ e ∈ cmd.toWatch, ∃ w, e = some w ∧ w.WellFormed

theorem cStr_of_nulFree {s : String} (h : NulFree s) : cStr s = s := by
  have htake : s.toList.takeWhile (· ≠ '\x00') = s.toList := by
    rw [List.takeWhile_eq_self_iff]
    intro c hc
    rw [decide_eq_true_eq]
    rintro rfl
    exact h hc
  rw [cStr, htake, String.ofList_toList]

/-! ## What the encoders build -/

def surveillanceValue : Surveillance → Value
  | .inotify rootPaths mask size => .table [scalarField .uint8 surveillanceInotify,
      some (.table [some (.string rootPaths), scalarField .int32 mask, scalarField .uint32 size])]
  | .watchSocket destport => .table [scalarField .uint8 surveillanceTCPSocket,
      some (.table [scalarField .uint32 destport])]

def runCommandValue (cmd : Command) : Value :=
  .table [some (.string cmd.path), some (.vector (cmd.args.map .string)),
    some (.vector (cmd.envp.map .string)), scalarField .uint32 cmd.flags,
    scalarField .uint32 cmd.stackSize, some (.vector (cmd.toWatch.reduceOption.map surveillanceValue))]

def commandValue (cmd : Command) : Value := messageValue .runCommand (runCommandValue cmd)

theorem Command.WellFormed.surveillance {cmd : Command} (h : cmd.WellFormed) {w : Surveillance}
    (hw : w ∈ cmd.toWatch.reduceOption) : w.WellFormed := by
  obtain ⟨w', heq, hw'⟩ := h.toWatch (some w) (List.reduceOption_mem_iff.mp hw)
  cases heq
  exact hw'

/-- What the client needs of a command; its strings may have any character. -/
structure Command.Fits (cmd : Command) : Prop where
  flags : ScalarType.uint32.fits cmd.flags = true
  stackSize : ScalarType.uint32.fits cmd.stackSize = true
  toWatch : ∀ w ∈ cmd.toWatch.reduceOption, w.WellFormed

theorem Command.WellFormed.fits {cmd : Command} (h : cmd.WellFormed) : cmd.Fits :=
  ⟨h.flags, h.stackSize, fun _ hw => h.surveillance hw⟩

section Tables

variable {objs : List Value} {o : Offset} {mask : Int} {size destport : Nat} {rootPaths : String} {v : Value}

theorem createInotify_builds (ho : Stored objs o (.string rootPaths))
    (hmask : ScalarType.int32.fits mask = true) (hsize : ScalarType.uint32.fits size = true) :
    Builds (createInotify o mask size) objs fun o' objs' => Stored objs' o'
      (.table [some (.string rootPaths), scalarField .int32 mask, scalarField .uint32 size]) :=
  createTable_builds (.cons (.scalar hsize) (.cons (.scalar hmask) (.cons (.offset ho) .nil))) 3

theorem createTCPSocket_builds (objs : List Value) (hport : ScalarType.uint32.fits destport = true) :
    Builds (createTCPSocket destport) objs fun o' objs' =>
      Stored objs' o' (.table [scalarField .uint32 destport]) :=
  createTable_builds (.cons (.scalar hport) .nil) 1

theorem createSurveillanceEvent_builds (ho : Stored objs o v) {tag : Nat}
    (htag : ScalarType.uint8.fits tag = true) :
    Builds (createSurveillanceEvent tag o) objs fun o' objs' =>
      Stored objs' o' (.table [scalarField .uint8 tag, some v]) :=
  createTable_builds (.cons (.offset ho) (.cons (.scalar htag) .nil)) 2

theorem Python.surveillance_builds {w : Surveillance} (hw : w.WellFormed) (objs : List Value) :
    Builds (Python.surveillance w) objs fun o' objs' => Stored objs' o' (surveillanceValue w) := by
  cases w with
  | inotify rootPaths mask size =>
    obtain ⟨-, hmask, hsize⟩ := hw
    refine (createString_builds objs rootPaths).bind fun o objs₁ _ ho => ?_
    refine (createTable_builds
      (.cons (.offset ho) (.cons (.scalar hmask) (.cons (.scalar hsize) .nil))) 3).bind fun e objs₂ _ he => ?_
    exact createTable_builds (.cons (.scalar rfl) (.cons (.offset he) .nil)) 2
  | watchSocket destport =>
    refine (createTable_builds (.cons (.scalar hw) .nil) 1).bind fun e objs₁ _ he => ?_
    exact createTable_builds (.cons (.scalar rfl) (.cons (.offset he) .nil)) 2

theorem Rust.surveillanceEvent_builds {w : Surveillance} (hw : w.WellFormed) (objs : List Value) :
    Builds (Rust.surveillanceEvent w) objs fun o' objs' => Stored objs' o' (surveillanceValue w) := by
  cases w with
  | inotify rootPaths mask size =>
    obtain ⟨-, hmask, hsize⟩ := hw
    refine (createString_builds objs rootPaths).bind fun o objs₁ _ ho => ?_
    refine (createInotify_builds ho hmask hsize).bind fun e objs₂ _ he => ?_
    exact createSurveillanceEvent_builds he rfl
  | watchSocket destport =>
    refine (createTCPSocket_builds objs hw).bind fun e objs₁ _ he => ?_
    exact createSurveillanceEvent_builds he rfl

/-- C++ differs from Rust only in where a string ends. -/
theorem serializeSurveillance_builds {w : Surveillance} (hw : w.WellFormed) (objs : List Value) :
    Builds (serializeSurveillance w) objs fun o' objs' => Stored objs' o' (surveillanceValue w) := by
  have hrust := Rust.surveillanceEvent_builds hw objs
  cases w with
  | inotify rootPaths mask size =>
    rw [serializeSurveillance, cStr_of_nulFree hw.1]
    exact hrust
  | watchSocket destport => exact hrust

end Tables

theorem createStrings_builds (objs : List Value) (ss : List String) :
    Builds (ss.mapM createString) objs fun os objs' => StoredAll objs' os (ss.map .string) :=
  mapM_builds (fun s _ objs => createString_builds objs s) objs

theorem createCStrings_builds (objs : List Value) {ss : List String} (h : ∀ s ∈ ss, NulFree s) :
    Builds (ss.mapM fun s => createString (cStr s)) objs fun os objs' =>
      StoredAll objs' os (ss.map .string) := by
  refine mapM_builds (fun s hs objs => ?_) objs
  rw [cStr_of_nulFree (h s hs)]
  exact createString_builds objs s

section Commands

variable {cmd : Command} {objs : List Value} {path args envp toWatch : Offset}

/-- The parts of a command are stored. -/
structure Parts (objs : List Value) (cmd : Command) (path args envp toWatch : Offset) : Prop where
  path : Stored objs path (.string cmd.path)
  args : Stored objs args (.vector (cmd.args.map .string))
  envp : Stored objs envp (.vector (cmd.envp.map .string))
  toWatch : Stored objs toWatch (.vector (cmd.toWatch.reduceOption.map surveillanceValue))

theorem createRunCommand_builds (hcmd : cmd.Fits) (h : Parts objs cmd path args envp toWatch) :
    Builds (createRunCommand path args envp cmd.flags cmd.stackSize toWatch >>= createMessage .runCommand)
      objs fun o objs' => Stored objs' o (commandValue cmd) := by
  have htable : Builds (createRunCommand path args envp cmd.flags cmd.stackSize toWatch) objs
      fun o objs' => Stored objs' o (runCommandValue cmd) :=
    createTable_builds (.cons (.offset h.toWatch) (.cons (.scalar hcmd.stackSize)
      (.cons (.scalar hcmd.flags) (.cons (.offset h.envp) (.cons (.offset h.args)
      (.cons (.offset h.path) .nil)))))) 6
  exact htable.bind fun o objs₁ _ ho => createMessage_builds ho _

theorem serializeCommand_builds (hcmd : cmd.WellFormed) :
    Builds (serializeCommand cmd) [] fun o objs => Stored objs o (commandValue cmd) := by
  rw [serializeCommand, cStr_of_nulFree hcmd.path]
  refine (createCStrings_builds [] hcmd.args).bind fun argsRefs objs₁ _ hargsRefs => ?_
  refine (createCStrings_builds objs₁ hcmd.envp).bind fun envpRefs objs₂ h₂ henvpRefs => ?_
  refine (createString_builds objs₂ cmd.path).bind fun path objs₃ h₃ hpath => ?_
  refine (createVector_builds (hargsRefs.mono (h₂.trans h₃))).bind fun args objs₄ h₄ hargs => ?_
  refine (createVector_builds (henvpRefs.mono (h₃.trans h₄))).bind fun envp objs₅ h₅ henvp => ?_
  have hws : ∀ w ∈ cmd.toWatch.reduceOption, ∀ objs, Builds (serializeSurveillance w) objs
      fun o objs' => Stored objs' o (surveillanceValue w) := fun w hw objs =>
    serializeSurveillance_builds (hcmd.surveillance hw) objs
  refine (mapM_builds hws objs₅).bind fun surveillances objs₆ h₆ hsurveillances => ?_
  refine (createVector_builds hsurveillances).bind fun toWatch objs₇ h₇ htoWatch => ?_
  have h₆₇ := h₆.trans h₇
  exact createRunCommand_builds hcmd.fits ⟨hpath.mono (h₄.trans (h₅.trans h₆₇)), hargs.mono (h₅.trans h₆₇),
    henvp.mono h₆₇, htoWatch⟩

theorem Python.buildCommand_builds (hcmd : cmd.WellFormed) :
    Builds (Python.buildCommand cmd) [] fun o objs => Stored objs o (commandValue cmd) := by
  refine (createStrings_builds [] cmd.args).bind fun argsOffsets objs₁ _ hargsOffsets => ?_
  refine (createStrings_builds objs₁ cmd.envp).bind fun envpOffsets objs₂ h₂ henvpOffsets => ?_
  refine (createString_builds objs₂ cmd.path).bind fun path objs₃ h₃ hpath => ?_
  have hws : ∀ w ∈ cmd.toWatch.reduceOption, ∀ objs, Builds (Python.surveillance w) objs
      fun o objs' => Stored objs' o (surveillanceValue w) := fun w hw objs =>
    Python.surveillance_builds (hcmd.surveillance hw) objs
  refine (mapM_builds hws objs₃).bind fun surveillances objs₄ h₄ hsurveillances => ?_
  -- a `Prepend` loop over the reversed offsets is a `CreateVector`
  have h₃₄ := h₃.trans h₄
  refine (createVector_builds (hargsOffsets.mono (h₂.trans h₃₄))).bind fun args objs₅ h₅ hargs => ?_
  refine (createVector_builds (henvpOffsets.mono (h₃₄.trans h₅))).bind fun envp objs₆ h₆ henvp => ?_
  have h₅₆ := h₅.trans h₆
  refine (createVector_builds (hsurveillances.mono h₅₆)).bind fun toWatch objs₇ h₇ htoWatch => ?_
  have hpath' := hpath.mono (h₄.trans (h₅₆.trans h₇))
  refine (createTable_builds (.cons (.offset hpath') (.cons (.offset (hargs.mono (h₆.trans h₇)))
    (.cons (.offset (henvp.mono h₇)) (.cons (.scalar hcmd.flags) (.cons (.scalar hcmd.stackSize)
    (.cons (.offset htoWatch) .nil)))))) 6).bind fun runCommand objs₈ _ hrunCommand => ?_
  exact createTable_builds (.cons (.scalar rfl) (.cons (.offset hrunCommand) .nil)) 2

theorem Rust.serializeRunCommand_builds {offsets : List Offset} (hcmd : cmd.Fits)
    (h : StoredAll objs offsets (cmd.toWatch.reduceOption.map surveillanceValue)) :
    Builds (Rust.serializeRunCommand cmd.path cmd.args cmd.envp cmd.flags cmd.stackSize offsets) objs
      fun o objs' => Stored objs' o (commandValue cmd) := by
  refine (createStrings_builds objs cmd.args).bind fun argsOffsets objs₁ h₁ hargsOffsets => ?_
  refine (createStrings_builds objs₁ cmd.envp).bind fun envsOffsets objs₂ h₂ henvsOffsets => ?_
  refine (createVector_builds (hargsOffsets.mono h₂)).bind fun args objs₃ h₃ hargs => ?_
  refine (createVector_builds (henvsOffsets.mono h₃)).bind fun envp objs₄ h₄ henvp => ?_
  refine (createString_builds objs₄ cmd.path).bind fun path objs₅ h₅ hpath => ?_
  have h₁₅ := h₁.trans (h₂.trans (h₃.trans (h₄.trans h₅)))
  refine (createVector_builds (h.mono h₁₅)).bind fun toWatch objs₆ h₆ htoWatch => ?_
  have h₅₆ := h₅.trans h₆
  exact createRunCommand_builds hcmd ⟨hpath.mono h₆, hargs.mono (h₄.trans h₅₆), henvp.mono h₅₆, htoWatch⟩

theorem Rust.buildCommand_builds (hcmd : cmd.Fits) :
    Builds (Rust.buildCommand cmd) [] fun o objs => Stored objs o (commandValue cmd) := by
  have hws : ∀ w ∈ cmd.toWatch.reduceOption, ∀ objs, Builds (Rust.surveillanceEvent w) objs
      fun o objs' => Stored objs' o (surveillanceValue w) := fun w hw objs =>
    Rust.surveillanceEvent_builds (hcmd.toWatch w hw) objs
  exact (mapM_builds hws []).bind fun toWatch objs₁ _ htoWatch =>
    Rust.serializeRunCommand_builds hcmd htoWatch

end Commands

/-! ## Reading it back -/

theorem verifySurveillanceEvent_value {w : Surveillance} (hw : w.WellFormed) :
    verifySurveillanceEvent (surveillanceValue w) = true := by
  cases w with
  | inotify rootPaths mask size =>
    obtain ⟨-, hmask, hsize⟩ := hw
    have hinotify : verifyInotify (.table [some (.string rootPaths), scalarField .int32 mask,
        scalarField .uint32 size]) = true := by
      unfold verifyInotify
      rw [Value.verifyScalar_of_field (i := 1) rfl hmask, Value.verifyScalar_of_field (i := 2) rfl hsize]
      rfl
    exact hinotify
  | watchSocket destport => exact Value.verifyScalar_of_field (i := 0) rfl hw

theorem verifyRunCommand_fits {cmd : Command} (hcmd : cmd.Fits) :
    verifyRunCommand (runCommandValue cmd) = true := by
  have hstrings : ∀ ss : List String, (ss.map Value.string).all Value.isString = true := by
    intro ss
    simp [Value.isString]
  have hwatch : (cmd.toWatch.reduceOption.map surveillanceValue).all verifySurveillanceEvent = true := by
    rw [List.all_map, List.all_eq_true]
    exact fun w hw => verifySurveillanceEvent_value (hcmd.toWatch w hw)
  unfold verifyRunCommand
  rw [Value.verifyScalar_of_field (i := 3) rfl hcmd.flags,
    Value.verifyScalar_of_field (i := 4) rfl hcmd.stackSize]
  show (true && (cmd.args.map Value.string).all Value.isString &&
    (cmd.envp.map Value.string).all Value.isString && true && true && _) = true
  rw [hstrings, hstrings]
  exact hwatch

theorem verifyRunCommand_value {cmd : Command} (hcmd : cmd.WellFormed) :
    verifyRunCommand (runCommandValue cmd) = true :=
  verifyRunCommand_fits hcmd.fits

theorem asSurveillanceEvent_inotify (rootPaths : String) (mask : Int) (size : Nat) :
    asSurveillanceEvent (surveillanceValue (.inotify rootPaths mask size)) =
      .inotify (some ⟨some rootPaths, mask, size⟩) := by
  have hinotify : asInotify (.table [some (.string rootPaths), scalarField .int32 mask,
      scalarField .uint32 size]) = ⟨some rootPaths, mask, size⟩ := by
    unfold asInotify
    rw [Value.scalarAt_of_field (i := 1) rfl, Value.scalarAt_of_field (i := 2) rfl]
    rfl
  have htag : ((surveillanceValue (.inotify rootPaths mask size)).scalarAt 0).toNat = 1 := rfl
  rw [asSurveillanceEvent, dif_pos htag, ← hinotify]
  rfl

theorem asSurveillanceEvent_watchSocket (destport : Nat) :
    asSurveillanceEvent (surveillanceValue (.watchSocket destport)) = .tcpSocket (some ⟨destport⟩) := by
  have hsocket : asTCPSocket (.table [scalarField .uint32 destport]) = ⟨destport⟩ := by
    unfold asTCPSocket
    rw [Value.scalarAt_of_field (i := 0) rfl]
    rfl
  have htag : ((surveillanceValue (.watchSocket destport)).scalarAt 0).toNat = 2 := rfl
  rw [asSurveillanceEvent, dif_neg (by omega), dif_pos htag, ← hsocket]
  rfl

theorem receiveSurveillance_value {w : Surveillance} (hw : w.WellFormed) :
    receiveSurveillance (asSurveillanceEvent (surveillanceValue w)) = .ok (some w) := by
  cases w with
  | inotify rootPaths mask size =>
    rw [asSurveillanceEvent_inotify]
    show Except.ok (some (Surveillance.inotify (cStr rootPaths) mask size)) = _
    rw [cStr_of_nulFree hw.1]
  | watchSocket destport =>
    rw [asSurveillanceEvent_watchSocket]
    rfl

theorem receiveSurveillances_values {ws : List Surveillance} (hws : ∀ w ∈ ws, w.WellFormed) :
    receiveSurveillances ((ws.map surveillanceValue).map asSurveillanceEvent) = .ok (ws.map some) := by
  induction ws with
  | nil => rfl
  | cons w ws ih =>
    obtain ⟨hw, hws⟩ := List.forall_mem_cons.mp hws
    simp only [List.map_cons, receiveSurveillances, receiveSurveillance_value hw, ih hws]
    rfl

theorem map_some_reduceOption {ws : List (Option Surveillance)} (h : ∀ e ∈ ws, e.isSome = true) :
    ws.reduceOption.map some = ws := by
  induction ws with
  | nil => rfl
  | cons e ws ih =>
    obtain ⟨he, hws⟩ := List.forall_mem_cons.mp h
    obtain ⟨w, rfl⟩ := Option.isSome_iff_exists.mp he
    rw [List.reduceOption_cons_of_some, List.map_cons, ih hws]

theorem asRunCommand_value (cmd : Command) :
    asRunCommand (runCommandValue cmd) = ⟨some cmd.path, some cmd.args, some cmd.envp, cmd.flags,
      cmd.stackSize, some ((cmd.toWatch.reduceOption.map surveillanceValue).map asSurveillanceEvent)⟩ := by
  have hstrings : ∀ ss : List String, (ss.map Value.string).map asString = ss := by
    intro ss
    simp [Function.comp_def, asString]
  unfold asRunCommand
  rw [Value.scalarAt_of_field (i := 3) rfl, Value.scalarAt_of_field (i := 4) rfl]
  show RunCommand.mk _ (some ((cmd.args.map Value.string).map asString))
    (some ((cmd.envp.map Value.string).map asString)) _ _ _ = _
  rw [hstrings, hstrings]
  rfl

theorem receiveRunCommand_value {cmd : Command} (hcmd : cmd.WellFormed) :
    receiveRunCommand (some (asRunCommand (runCommandValue cmd))) = .ok cmd := by
  have hcStr : ∀ ss : List String, (∀ s ∈ ss, NulFree s) → ss.map cStr = ss := by
    intro ss hss
    rw [List.map_congr_left fun s hs => cStr_of_nulFree (hss s hs), List.map_id']
  have hsome := map_some_reduceOption fun e he => by
    obtain ⟨w, rfl, -⟩ := hcmd.toWatch e he
    rfl
  rw [asRunCommand_value]
  simp only [receiveRunCommand, deref, bind, Except.bind, Option.getD_some,
    receiveSurveillances_values fun w hw => hcmd.surveillance hw]
  rw [cStr_of_nulFree hcmd.path, hcStr _ hcmd.args, hcStr _ hcmd.envp, hsome]
  rfl

/-- `receive_command` returns the command for the buffer. -/
def DecodesTo (verify : Bytes → Int → Option Value) (info : Option BufferInfo) (cmd : Command) : Prop :=
  ∃ i, info = some i ∧
    receiveCommand (fun b n => (verify b n).map asMessage) (some i.buffer) i.size = .ok (some cmd)

theorem Returned.decodesTo {verify : Bytes → Int → Option Value} {bytes : Value → Bytes}
    {calls : Build Offset} {cmd : Command} (h : Returned verify bytes calls) (hcmd : cmd.WellFormed)
    (hcalls : Builds calls [] fun o objs => Stored objs o (commandValue cmd)) :
    DecodesTo verify (finish bytes calls) cmd := by
  obtain ⟨b, hinfo, hne, hread⟩ :=
    finish_of_faithful h hcalls (verifyMessage_messageValue (verifyRunCommand_value hcmd))
  refine ⟨_, hinfo, ?_⟩
  have hsize : ¬ (b.length : Int) ≤ 0 := not_le.mpr (size_pos hne)
  have hmsg : getMessage (fun b n => (verify b n).map asMessage) (some b) b.length =
      some (.runCommand (some (asRunCommand (runCommandValue cmd)))) := by
    simp only [getMessage, hread, if_neg hsize, Option.map_some]
    rfl
  simp only [receiveCommand, hmsg, receiveRunCommand_value hcmd]
  rfl

/-- The buffers of the three clients are all decoded to the command. -/
theorem run_command_decoded {verify : Bytes → Int → Option Value}
    {cppBytes pythonBytes rustBytes : Value → Bytes} {cmd : Command} (hcmd : cmd.WellFormed)
    (hcpp : Returned verify cppBytes (serializeCommand cmd))
    (hpython : Returned verify pythonBytes (Python.buildCommand cmd))
    (hrust : Returned verify rustBytes (Rust.buildCommand cmd)) :
    DecodesTo verify (sendCommandToDemon cppBytes cmd) cmd ∧
      DecodesTo verify (Python.sendCommandToDemon pythonBytes cmd) cmd ∧
      DecodesTo verify (Rust.sendCommand rustBytes cmd) cmd :=
  ⟨hcpp.decodesTo hcmd (serializeCommand_builds hcmd),
    hpython.decodesTo hcmd (Python.buildCommand_builds hcmd),
    hrust.decodesTo hcmd (Rust.buildCommand_builds hcmd.fits)⟩

/-- A command with two arguments and one socket to watch. -/
def lsCommand : Command := ⟨"ls", ["-l", "/"], [], 0, 0, [some (.watchSocket 80)]⟩

/-- Its buffer as the C++ package lays it out. -/
def cppLs : Bytes :=
  [12, 0, 0, 0, 8, 0, 12, 0, 7, 0, 8, 0, 8, 0, 0, 0, 0, 0, 0, 1, 20, 0, 0, 0,
   16, 0, 20, 0, 4, 0, 8, 0, 12, 0, 0, 0, 0, 0, 16, 0, 16, 0, 0, 0, 76, 0, 0, 0,
   60, 0, 0, 0, 52, 0, 0, 0, 4, 0, 0, 0, 1, 0, 0, 0, 12, 0, 0, 0, 8, 0, 14, 0,
   7, 0, 8, 0, 8, 0, 0, 0, 0, 0, 0, 2, 12, 0, 0, 0, 0, 0, 6, 0, 8, 0, 4, 0,
   6, 0, 0, 0, 80, 0, 0, 0, 0, 0, 0, 0, 2, 0, 0, 0, 24, 0, 0, 0, 12, 0, 0, 0,
   2, 0, 0, 0, 108, 115, 0, 0, 1, 0, 0, 0, 47, 0, 0, 0, 2, 0, 0, 0, 45, 108, 0, 0]

def pythonLs : Bytes :=
  [12, 0, 0, 0, 8, 0, 12, 0, 11, 0, 4, 0, 8, 0, 0, 0, 24, 0, 0, 0, 0, 0, 0, 1,
   16, 0, 20, 0, 16, 0, 12, 0, 8, 0, 0, 0, 0, 0, 4, 0, 16, 0, 0, 0, 16, 0, 0, 0,
   20, 0, 0, 0, 20, 0, 0, 0, 60, 0, 0, 0, 1, 0, 0, 0, 28, 0, 0, 0, 0, 0, 0, 0,
   2, 0, 0, 0, 56, 0, 0, 0, 44, 0, 0, 0, 8, 0, 10, 0, 9, 0, 4, 0, 8, 0, 0, 0,
   12, 0, 0, 0, 0, 2, 6, 0, 8, 0, 4, 0, 6, 0, 0, 0, 80, 0, 0, 0, 2, 0, 0, 0,
   108, 115, 0, 0, 1, 0, 0, 0, 47, 0, 0, 0, 2, 0, 0, 0, 45, 108, 0, 0]

def rustLs : Bytes :=
  [12, 0, 0, 0, 8, 0, 12, 0, 7, 0, 8, 0, 8, 0, 0, 0, 0, 0, 0, 1, 20, 0, 0, 0,
   16, 0, 20, 0, 4, 0, 8, 0, 12, 0, 0, 0, 0, 0, 16, 0, 16, 0, 0, 0, 24, 0, 0, 0,
   32, 0, 0, 0, 24, 0, 0, 0, 4, 0, 0, 0, 1, 0, 0, 0, 52, 0, 0, 0, 2, 0, 0, 0,
   108, 115, 0, 0, 0, 0, 0, 0, 2, 0, 0, 0, 16, 0, 0, 0, 4, 0, 0, 0, 1, 0, 0, 0,
   47, 0, 0, 0, 2, 0, 0, 0, 45, 108, 0, 0, 8, 0, 14, 0, 7, 0, 8, 0, 8, 0, 0, 0,
   0, 0, 0, 2, 12, 0, 0, 0, 0, 0, 6, 0, 8, 0, 4, 0, 6, 0, 0, 0, 80, 0, 0, 0]

/-- What the verifier and the accessors make of the three buffers. -/
def verifyLs (b : Bytes) (n : Int) : Option Value :=
  if b ∈ [cppLs, pythonLs, rustLs] ∧ n = b.length then some (commandValue lsCommand) else none

theorem lsCommand_wellFormed : lsCommand.WellFormed where
  path := by simp [NulFree, lsCommand]
  args := by simp [NulFree, lsCommand]
  envp := by simp [lsCommand]
  flags := by decide
  stackSize := by decide
  toWatch := by
    intro e he
    rw [List.mem_singleton.mp he]
    exact ⟨.watchSocket 80, rfl, show ScalarType.uint32.fits (80 : Nat) = true by decide⟩

theorem ls_command_decoded :
    DecodesTo verifyLs (sendCommandToDemon (fun _ => cppLs) lsCommand) lsCommand ∧
      DecodesTo verifyLs (Python.sendCommandToDemon (fun _ => pythonLs) lsCommand) lsCommand ∧
      DecodesTo verifyLs (Rust.sendCommand (fun _ => rustLs) lsCommand) lsCommand :=
  run_command_decoded lsCommand_wellFormed
    (faithful_of_builds (serializeCommand_builds lsCommand_wellFormed) (by simp [cppLs]) (if_pos (by simp)))
    (faithful_of_builds (Python.buildCommand_builds lsCommand_wellFormed) (by simp [pythonLs]) (if_pos (by simp)))
    (faithful_of_builds (Rust.buildCommand_builds lsCommand_wellFormed.fits) (by simp [rustLs]) (if_pos (by simp)))

end ProcCtrld
