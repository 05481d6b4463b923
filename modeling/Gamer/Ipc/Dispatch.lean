import Gamer.Lib.Machine
import Gamer.Lib.Table
import Gamer.Ipc.Frames

/-! The dispatcher of the launcher's IPC. `submit` holds the mutex from the first check to the
    reply, so it is one action; the worker it starts, its end and a spawn that fails come later
    and take the mutex for themselves:

        desktop?  ──▶ busy
        cached?   ──▶ the cached frame
        active?   ──▶ same kind: its accepted result │ other kind: busy, cached
        admit     ──▶ accept: cached, worker starts  │ no-op: cached │ refuse: cached

    The journal is read inside `submit`; what it says there is part of the action. Connections
    only keep the ids they have used. -/

namespace Gamer.Ipc
open Gamer.Lib Gamer.Updater

/-- Seconds for which a reply is kept. -/
def dedupWindow : Nat := 600

/-- What the journal and the operation say about a request. -/
inductive Admission where
  | accept (state : String) (updateId : Option String)
  | noOp (state : String) (updateId : Option String)
  | refuse (error : BusinessError)

/-- `Dispatcher::admit`. `status` never gets here. -/
def admitOp (journal : Except String UpdateJournal) (op : Operation) : Admission :=
  match journal with
  | .error e => .refuse ⟨Codes.updaterUnavailable, "读取 journal 失败: " ++ e⟩
  | .ok journal =>
    if journal.state = .manualRecoveryRequired then
      .refuse ⟨Codes.manualRecoveryRequired, "升级与自动回滚均失败，已停止自动重试；请人工恢复"⟩
    else
      let display := displayState journal
      let refuse code message := Admission.refuse ⟨code, message⟩
      match op with
      -- answered before `submit`
      | .status => refuse Codes.updateBusy ""
      | .check =>
        if display ∈ ["idle", "failed", "available", "staged", "waiting"] then
          .accept "checking" journal.updateId
        else refuse Codes.updateBusy ("状态 " ++ display ++ " 中不接受 check")
      | .download =>
        if display = "available" then .accept "downloading" journal.updateId
        else if display = "staged" then .noOp "staged" journal.updateId
        else refuse Codes.updateNotAvailable ("状态 " ++ display ++ " 无可下载候选")
      | .prepareInstall =>
        if display = "staged" then .accept "staged" journal.updateId
        else if display = "available" then
          refuse Codes.updateNotReady "候选尚未下载就位（先 download）"
        else refuse Codes.updateBusy ("状态 " ++ display ++ " 不接受 prepare_install")
      | .rollback =>
        if display ∈ ["staged", "waiting"] then .accept "rolling_back" journal.updateId
        else if display ∈ ["installing", "restarting", "rolling_back"] then
          refuse Codes.updateBusy ("状态 " ++ display ++ " 中不接受 rollback")
        else refuse Codes.rollbackUnavailable "无有效回滚点（无进行中事务或无已验证快照）"
      | .repairDependency _ => .accept display none

structure ActiveOp where
  op : Operation
  accepted : Accepted
  deriving DecidableEq

structure CachedReply where
  frame : Frame
  expires : Nat
  deriving DecidableEq

/-- What the mutex guards. -/
structure Inner where
  desktopActive : Bool
  active : Option ActiveOp
  cache : Table String CachedReply

/-- The thread of a long operation: being spawned, or running. -/
structure Worker where
  op : Operation
  running : Bool
  deriving DecidableEq

/-- One answered call of `submit`: when it read the clock, when it was answered, whether it started
    an operation, and whether it opens a window of its id, as the first accepted answer since the
    last window. -/
structure Reply where
  requestId : String
  op : Operation
  asked : Nat
  answered : Nat
  frame : Frame
  started : Bool
  first : Bool
  deriving DecidableEq

/-- The answer opens a window in which `now` lies. -/
def Reply.covers (e : Reply) (requestId : String) (now : Nat) : Bool :=
  e.first && e.requestId = requestId && now < e.answered + dedupWindow

/-- `replies` is the history of `submit`; `seen` are the ids each connection has used. -/
structure State where
  inner : Inner
  workers : List Worker
  seen : Table Nat (List String)
  clock : Nat
  replies : List Reply

def State.init : State := ⟨⟨false, none, ∅⟩, [], ∅, 0, []⟩

inductive Action where
  /-- A request on a connection, `wait` after the last action; the reply is put into the cache
      `delay` later. -/
  | request (conn : Nat) (requestId : String) (op : Operation) (wait delay : Nat)
      (journal : Except String UpdateJournal)
  | reconnect (conn : Nat)
  | spawned (k : Nat) (ok : Bool)
  | finished (k : Nat)
  | beginDesktop
  | endDesktop

def busyMessage : String := "已有升级/修复事务进行中，请以 status 轮询后再试"
def desktopMessage : String := "启动器正在处理安装或更新"

/-- `submit` under the mutex: the frame, whether an operation starts, and the guarded state. -/
def Inner.submit (inner : Inner) (requestId : String) (op : Operation) (now cachedAt : Nat)
    (journal : Except String UpdateJournal) : Frame × Bool × Inner :=
  if inner.desktopActive then (.error requestId Codes.updateBusy desktopMessage, false, inner)
  else
    let inner := { inner with cache := inner.cache.filter fun _ c => now < c.expires }
    let keep frame := inner.cache.set requestId ⟨frame, cachedAt + dedupWindow⟩
    match inner.cache.get requestId with
    | some cached => (cached.frame, false, inner)
    | none => match inner.active with
      | some active =>
        -- the reply of a coalesced request is not put into the cache
        if active.op = op then (.success requestId active.accepted, false, inner)
        else
          let frame := Frame.error requestId Codes.updateBusy busyMessage
          (frame, false, { inner with cache := keep frame })
      | none => match admitOp journal op with
        | .accept state updateId =>
          let accepted := Accepted.mk op.asStr updateId state
          let frame := Frame.success requestId accepted
          (frame, true, { inner with active := some ⟨op, accepted⟩, cache := keep frame })
        | .noOp state updateId =>
          let frame := Frame.success requestId ⟨op.asStr, updateId, state⟩
          (frame, false, { inner with cache := keep frame })
        | .refuse error =>
          let frame := Frame.error requestId error.code error.message
          (frame, false, { inner with cache := keep frame })

/-- The active slot is freed by the operation that holds it. -/
def Inner.release (inner : Inner) (op : Operation) : Inner :=
  if inner.active.any (·.op = op) then { inner with active := none } else inner

def step (s : State) : Action → Option State
  | .request conn requestId op wait delay journal =>
    let ids := (s.seen.get conn).getD []
    let now := s.clock + wait
    -- an id used twice on one connection, and `status`, do not reach `submit`
    if requestId ∈ ids then some { s with clock := now }
    else
      let seen := s.seen.set conn (requestId :: ids)
      if op = .status then some { s with clock := now, seen := seen }
      else
        let (frame, started, inner) := s.inner.submit requestId op now (now + delay) journal
        some {
          inner := inner
          workers := if started then s.workers ++ [⟨op, false⟩] else s.workers
          seen := seen
          clock := now + delay
          replies := s.replies ++ [⟨requestId, op, now, now + delay, frame, started,
            frame.accepted && !s.replies.any (·.covers requestId now)⟩] }
  | .reconnect conn => some { s with seen := s.seen.del conn }
  | .spawned k ok => match s.workers[k]? with
    | some ⟨op, false⟩ =>
      if ok then some { s with workers := s.workers.set k ⟨op, true⟩ }
      else some { s with workers := s.workers.eraseIdx k, inner := s.inner.release op }
    | _ => none
  | .finished k => match s.workers[k]? with
    | some ⟨op, true⟩ =>
      some { s with workers := s.workers.eraseIdx k, inner := s.inner.release op }
    | _ => none
  | .beginDesktop =>
    if s.inner.active.isSome || s.inner.desktopActive then none
    else some { s with inner := { s.inner with desktopActive := true } }
  | .endDesktop =>
    if s.inner.desktopActive then some { s with inner := { s.inner with desktopActive := false } }
    else none

end Gamer.Ipc
