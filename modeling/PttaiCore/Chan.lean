import Mathlib.Logic.Function.Basic
import PttaiCore.Lib.Run

/-!
# The channel that is checked before it is used

`Chan` of `common/types/chan.go`, shared by any number of threads. A thread that calls `Close` or `PassChan` stops between any two
accesses to what it shares with the others: the flag is read and written outside the lock, the Go channel is used inside it.
-/

namespace PttaiCore

inductive ChanOp (D : Type) where
  | close
  | passChan (d : D)

/-- Where a thread stands in its call. -/
inductive ChanAt (D : Type) where
  | outside
  /-- `Close` has read the flag as unset and has not set it yet. -/
  | toFlag
  | toLock (op : ChanOp D)
  | locked (op : ChanOp D)
  /-- The channel was used, or its use panicked; the deferred `Unlock` comes next. -/
  | toUnlock

structure Chan (T D : Type) where
  n : Nat
  theChan : List D
  /-- The Go channel has been closed. -/
  chanClosed : Bool
  isClose : Bool
  lock : Bool
  threads : T → ChanAt D

inductive ChanEvent (T D : Type) where
  | refused (t : T) (op : ChanOp D)
  | passed (t : T) (op : ChanOp D)
  | flagged (t : T)
  | locked (t : T)
  | sent (t : T) (d : D)
  | closed (t : T)
  | panicked (t : T)
  | unlocked (t : T)
  | received (d : D)

namespace Chan

variable {T D : Type}

def newChan (n : Int) : Chan T D := ⟨(if n < 1 then 1 else n).toNat, [], false, false, false, fun _ => .outside⟩

def isBusy (c : Chan T D) : Bool := c.theChan.length == c.n

variable [DecidableEq T]

def move (c : Chan T D) (t : T) (a : ChanAt D) : Chan T D := { c with threads := Function.update c.threads t a }

inductive Step : Chan T D → ChanEvent T D → Chan T D → Prop where
  -- `PassChan` answers `ErrLockClosed`, `Close` returns
  | refused {c t} (op) : c.threads t = .outside → c.isClose = true → Step c (.refused t op) c
  | passedClose {c t} : c.threads t = .outside → c.isClose = false → Step c (.passed t .close) (c.move t .toFlag)
  | passedPass {c t} (d) : c.threads t = .outside → c.isClose = false →
      Step c (.passed t (.passChan d)) (c.move t (.toLock (.passChan d)))
  | flagged {c t} : c.threads t = .toFlag → Step c (.flagged t) (move { c with isClose := true } t (.toLock .close))
  | locked {c t op} : c.threads t = .toLock op → c.lock = false → Step c (.locked t) (move { c with lock := true } t (.locked op))
  -- a full buffer blocks the sender inside the lock
  | sent {c t d} : c.threads t = .locked (.passChan d) → c.chanClosed = false → c.isBusy = false →
      Step c (.sent t d) (move { c with theChan := c.theChan ++ [d] } t .toUnlock)
  | closed {c t} : c.threads t = .locked .close → c.chanClosed = false →
      Step c (.closed t) (move { c with chanClosed := true } t .toUnlock)
  -- sending on a closed channel and closing it again panic
  | panicked {c t op} : c.threads t = .locked op → c.chanClosed = true → Step c (.panicked t) (c.move t .toUnlock)
  | unlocked {c t} : c.threads t = .toUnlock → Step c (.unlocked t) (move { c with lock := false } t .outside)
  | received {c d rest} : c.theChan = d :: rest → Step c (.received d) { c with theChan := rest }

end Chan

end PttaiCore
