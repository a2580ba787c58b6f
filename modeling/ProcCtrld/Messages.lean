import ProcCtrld.ProcessManager

/-!
# ProcCtrld.Messages

What a daemon sends to its clients: the tables of `demon.fbs` that go from the daemon to the user.
Both daemons use this vocabulary.
-/

namespace ProcCtrld

inductive InotifyEvent where
  | modified
  | created
  | sizeReached
  | deleted
  | accessed
deriving DecidableEq, Repr

inductive SocketState where
  | unknown
  | created
  | listeing
deriving DecidableEq, Repr

/-- A `uint32` read as an `int32`. -/
def asI32 (n : Nat) : Int := (BitVec.ofNat 32 n).toInt

theorem asI32_of_lt {n : Nat} (h : n < 2147483648) : asI32 n = n := by
  simp only [asI32, BitVec.toInt, BitVec.toNat_ofNat]
  omega

structure InotifyPathUpdated where
  path : String
  triggerEvents : InotifyEvent
  size : Nat
  sizeLimit : Nat
deriving DecidableEq, Repr

inductive Msg where
  | execveTerminated (pid : Pid) (commandName : String) (success : Bool)
  | processLaunched (pid : Pid)
  | childCreationError (errorCode : Nat)
  | processTerminated (pid : Pid) (errorCode : Nat)
  | tcpSocketListening (port : Nat)
  | inotifyPathUpdated (info : InotifyPathUpdated)
  | inotifyWatchListUpdated (path : String)
  | socketWatched (port : Int)
  | socketWatchTerminated (port : Int) (state : SocketState)
deriving DecidableEq, Repr

namespace Msg

def isExecveTerminated : Msg → Bool
  | execveTerminated _ _ _ => true
  | _ => false

def isProcessTerminated : Msg → Bool
  | processTerminated _ _ => true
  | _ => false

end Msg

end ProcCtrld
