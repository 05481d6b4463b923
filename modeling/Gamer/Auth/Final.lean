import Mathlib.Tactic.SplitIfs
import Mathlib.Logic.Equiv.Basic
import Gamer.Auth.Logins

/-! What is in a table of sessions, in memory or in the file, has been opened under the revision the
    table belongs to, and nothing since has ended it:

        history    …  used s    opened t    used s    opened s  │  …
                   └───── spares s ─────────────────┘           └ nothing about s

    A table whose revision is not the one in force holds nothing: a file left behind by a change of
    the account is never loaded again. -/

namespace Gamer.Auth
open Gamer.Lib

/-- The event leaves the session of this id alone. -/
def Event.Spares (sid : String) : Event → Prop
  | .opened other .. | .refused other | .destroyed other => other ≠ sid
  | .used .. => True
  | .replaced _ => False

/-- `sid` has been opened as `session` under `revision`, and all that came after spared it. -/
def Standing (history : List Event) (sid revision : String) (session : Session)
    (newer : List Event) : Prop :=
  ∃ outcome older, history = newer ++ .opened sid revision session outcome :: older ∧
    (∀ e ∈ older, e.sid ≠ some sid) ∧ ∀ e ∈ newer, e.Spares sid

/-- The stored session is the one that was opened, last seen then or at a later use. -/
structure Session.Continues (s opened : Session) (sid : String) (newer : List Event) : Prop where
  limits : s.absExpire = opened.absExpire ∧ s.remember = opened.remember ∧
    s.idleSecs = opened.idleSecs
  frozen : s.idleSecs.isSome = true
  seen : s.lastSeen = opened.lastSeen ∨ .used sid s.lastSeen ∈ newer

/-- INVARIANT of a table of sessions kept under `revision`. -/
def Covers (C : Crypto) (history : List Event) (revision : String)
    (sessions : Table String Session) : Prop :=
  ∀ key s, sessions.get key = some s → ∃ sid opened newer, C.digest sid = key ∧
    Standing history sid revision opened newer ∧ s.Continues opened sid newer

variable {C : Crypto} {history : List Event} {revision sid : String} {opened : Session}
  {newer : List Event} {sessions : Table String Session}

/-! ### One session -/

theorem Standing.push (h : Standing history sid revision opened newer) {e : Event}
    (he : e.Spares sid) : Standing (e :: history) sid revision opened (e :: newer) := by
  obtain ⟨outcome, older, rfl, holder, hnewer⟩ := h
  refine ⟨outcome, older, rfl, holder, fun e' he' => ?_⟩
  rcases List.mem_cons.mp he' with rfl | he'
  · exact he
  · exact hnewer e' he'

/-- An id that is standing is not fresh. -/
theorem Standing.ne_of_fresh (h : Standing history sid revision opened newer) {other : String}
    (hfresh : ∀ e ∈ history, e.sid ≠ some other) : other ≠ sid := by
  rintro rfl
  obtain ⟨outcome, older, rfl, _⟩ := h
  exact hfresh (.opened other revision opened outcome) (by simp) rfl

theorem Session.Continues.push {s : Session} (h : s.Continues opened sid newer) (e : Event) :
    s.Continues opened sid (e :: newer) :=
  ⟨h.limits, h.frozen, h.seen.imp_right fun hmem => List.mem_cons_of_mem _ hmem⟩

/-! ### Tables -/

theorem Covers.empty : Covers C history revision ∅ := by
  intro key s hs
  cases hs

theorem Covers.sub (h : Covers C history revision sessions) {fewer : Table String Session}
    (hsub : ∀ key s, fewer.get key = some s → sessions.get key = some s) :
    Covers C history revision fewer :=
  fun key s hs => h key s (hsub key s hs)

theorem Covers.del (h : Covers C history revision sessions) (key : String) :
    Covers C history revision (sessions.del key) := by
  refine h.sub fun k s hs => ?_
  rw [Table.get_del] at hs
  split at hs
  · cases hs
  · exact hs

theorem Covers.filter (h : Covers C history revision sessions) (q : String → Session → Bool) :
    Covers C history revision (sessions.filter q) :=
  h.sub fun _ _ hs => (Table.get_filter_eq_some.mp hs).1

/-- STEP: an event that spares all that the table holds. -/
theorem Covers.push (h : Covers C history revision sessions) {e : Event}
    (he : ∀ key s sid, sessions.get key = some s → C.digest sid = key →
      (∃ opened newer, Standing history sid revision opened newer) → e.Spares sid) :
    Covers C (e :: history) revision sessions := by
  intro key s hs
  obtain ⟨sid, opened, newer, hkey, hstand, hcont⟩ := h key s hs
  exact ⟨sid, opened, e :: newer, hkey,
    hstand.push (he key s sid hs hkey ⟨opened, newer, hstand⟩), hcont.push e⟩

theorem Covers.push_used (h : Covers C history revision sessions) (sid : String) (now : Nat) :
    Covers C (.used sid now :: history) revision sessions :=
  h.push fun _ _ _ _ _ _ => trivial

theorem Covers.push_refused (h : Covers C history revision sessions)
    (hfresh : ∀ e ∈ history, e.sid ≠ some sid) :
    Covers C (.refused sid :: history) revision sessions :=
  h.push fun _ _ _ _ _ ⟨_, _, hstand⟩ => hstand.ne_of_fresh hfresh

theorem Covers.push_opened (h : Covers C history revision sessions)
    (hfresh : ∀ e ∈ history, e.sid ≠ some sid) (r : String) (outcome : Outcome) :
    Covers C (.opened sid r opened outcome :: history) revision sessions :=
  h.push fun _ _ _ _ _ ⟨_, _, hstand⟩ => hstand.ne_of_fresh hfresh

/-- STEP: the opened session comes into the table. -/
theorem Covers.open (h : Covers C history revision sessions)
    (hfresh : ∀ e ∈ history, e.sid ≠ some sid) (hidle : opened.idleSecs.isSome = true)
    (outcome : Outcome) :
    Covers C (.opened sid revision opened outcome :: history) revision
      (sessions.set (C.digest sid) opened) := by
  intro key s hs
  rw [Table.get_set] at hs
  split at hs
  · rename_i hkey
    cases hs
    exact ⟨sid, opened, [], hkey.symm, ⟨outcome, history, rfl, hfresh, by simp⟩,
      ⟨rfl, rfl, rfl⟩, hidle, Or.inl rfl⟩
  · exact h.push_opened hfresh revision outcome key s hs

/-- STEP: a use moves the session's last sight of it on. -/
theorem Covers.renew (hC : Function.Injective C.digest) (h : Covers C history revision sessions)
    {s : Session} (hs : sessions.get (C.digest sid) = some s) (now : Nat) :
    Covers C (.used sid now :: history) revision
      (sessions.set (C.digest sid) { s with lastSeen := now }) := by
  intro key s' hs'
  rw [Table.get_set] at hs'
  split at hs'
  · rename_i hkey
    cases hs'
    obtain ⟨sid', opened, newer, hkey', hstand, hcont⟩ := h _ s hs
    obtain rfl : sid' = sid := hC hkey'
    exact ⟨sid', opened, _, hkey.symm, hstand.push trivial, hcont.limits, hcont.frozen,
      Or.inr (by simp)⟩
  · exact h.push_used sid now key s' hs'

/-- STEP: what is left after a session is destroyed. -/
theorem Covers.destroy (h : Covers C history revision sessions) (sid : String) :
    Covers C (.destroyed sid :: history) revision (sessions.del (C.digest sid)) := by
  refine (h.del _).push fun key s other hs hkey _ => ?_
  rintro rfl
  rw [Table.get_del, hkey] at hs
  simp at hs

/-- STEP: a session whose idle limit is set keeps it when it is loaded. -/
theorem Covers.freeze (h : Covers C history revision sessions) (idle : Nat) :
    Covers C history revision
      (sessions.map fun s => { s with idleSecs := some (s.idleSecs.getD idle) }) := by
  intro key s hs
  rw [Table.get_map] at hs
  obtain ⟨s₀, hs₀, rfl⟩ := Option.map_eq_some_iff.mp hs
  obtain ⟨sid, opened, newer, hkey, hstand, hcont⟩ := h key s₀ hs₀
  obtain ⟨secs, hsecs⟩ := Option.isSome_iff_exists.mp hcont.frozen
  have hsame : some (s₀.idleSecs.getD idle) = s₀.idleSecs := by simp [hsecs]
  refine ⟨sid, opened, newer, hkey, hstand, ⟨hcont.limits.1, hcont.limits.2.1, ?_⟩, rfl,
    hcont.seen⟩
  exact hsame.trans hcont.limits.2.2

namespace World

/-! ### Worlds -/

/-- The file's sessions stand, if the file is of the revision in force. -/
def FileGood (C : Crypto) (w : World) : Prop :=
  ∀ f, w.file = some f → f.accountRevision ∈ w.revisions ∧
    (f.accountRevision = w.config.accountRevision →
      Covers C w.history w.config.accountRevision f.sessions)

/-- The process's sessions stand, and its account is the one in force. -/
def ProcessGood (C : Crypto) (w : World) (p : Process) : Prop :=
  p.account.revision = w.config.accountRevision ∧
    Covers C w.history w.config.accountRevision p.sessions

/-- INVARIANT of every run. -/
structure Inv (C : Crypto) (w : World) : Prop where
  current : w.config.accountRevision ∈ w.revisions
  file : w.FileGood C
  process : ∀ p, w.process = some p → w.ProcessGood C p

variable {w w' : World} {p : Process}

/-- STEP: the process writes the file as `p` and goes on as `q`, or ends. -/
theorem Inv.write (hfile : w.FileGood C) (hp : w.ProcessGood C p) {q : Process}
    (hq : w.ProcessGood C q) (hcur : w.config.accountRevision ∈ w.revisions) (write : Write) :
    ((w.persist p write).resume q write).Inv C := by
  have hnew : ∀ f, some p.sessionFile = some f → f.accountRevision ∈ w.revisions ∧
      (f.accountRevision = w.config.accountRevision →
        Covers C w.history w.config.accountRevision f.sessions) := by
    intro f hf
    have hknown : p.account.revision ∈ w.revisions := hp.1.symm ▸ hcur
    cases hf
    exact ⟨hknown, fun _ => hp.2⟩
  cases write with
  | ok | unsynced => exact ⟨hcur, hnew, fun r hr => by cases hr; exact hq⟩
  | failed => exact ⟨hcur, hfile, fun r hr => by cases hr; exact hq⟩
  | crashed replaced =>
    cases replaced with
    | true => exact ⟨hcur, hnew, fun r hr => by cases hr⟩
    | false => exact ⟨hcur, hfile, fun r hr => by cases hr⟩

theorem Inv.ended (h : w.Inv C) : Inv C { w with process := none } :=
  ⟨h.current, h.file, fun p hp => by cases hp⟩

theorem Inv.runs (h : w.Inv C) (hp : w.ProcessGood C p) : Inv C { w with process := some p } :=
  ⟨h.current, h.file, fun q hq => by cases hq; exact hp⟩

/-- FRAME: the failed logins do not touch the account and the sessions. -/
theorem checkLogin_frame (p : Process) (C : Crypto) (settings : LoginSettings) (now : Nat)
    (username password ip : String) :
    (p.checkLogin C settings now username password ip).1.account = p.account ∧
      (p.checkLogin C settings now username password ip).1.sessions = p.sessions := by
  unfold Process.checkLogin
  dsimp only
  split_ifs <;> exact ⟨rfl, rfl⟩

theorem checkPassword_frame (p : Process) (C : Crypto) (settings : LoginSettings) (now : Nat)
    (req : UpdateAccount) (ip : String) :
    (p.checkPassword C settings now req ip).1.account = p.account ∧
      (p.checkPassword C settings now req ip).1.sessions = p.sessions := by
  unfold Process.checkPassword
  dsimp only
  split_ifs <;> exact ⟨rfl, rfl⟩

theorem ProcessGood.congr (h : w.ProcessGood C p) {q : Process} (haccount : q.account = p.account)
    (hsessions : q.sessions = p.sessions) : w.ProcessGood C q := by
  rw [ProcessGood, haccount, hsessions]
  exact h

/-! ### Operations -/

theorem FileGood.record (h : w.FileGood C) {e : Event}
    (he : ∀ sessions, Covers C w.history w.config.accountRevision sessions →
      Covers C (e :: w.history) w.config.accountRevision sessions) : (w.record e).FileGood C := by
  intro f hf
  obtain ⟨hknown, hfile⟩ := h f hf
  exact ⟨hknown, fun hsame => he _ (hfile hsame)⟩

theorem Inv.openSession (h : w.Inv C) (hp : w.ProcessGood C p) (remember : Bool) {sid : String}
    (hfresh : w.Fresh sid) (write : Write) :
    (w.openSession C p remember sid write).1.Inv C := by
  obtain ⟨hrev, hcovers⟩ := hp
  set session := p.makeSession w.settings w.now remember with hsession
  set sessions := p.sessions.set (C.digest sid) session with hsessions
  have hidle : session.idleSecs.isSome = true := by rw [hsession]; rfl
  have hopen : ∀ outcome, (w.record (.opened sid p.account.revision session outcome)).ProcessGood C
      { p with sessions := sessions } := by
    intro outcome
    rw [hrev]
    exact ⟨hrev, hcovers.open hfresh hidle outcome⟩
  have hundo : ∀ outcome, (w.record (.opened sid p.account.revision session outcome)).ProcessGood C
      { p with sessions := sessions.del (C.digest sid) } :=
    fun outcome => ⟨hrev, (hopen outcome).2.del _⟩
  have hfile : ∀ outcome,
      (w.record (.opened sid p.account.revision session outcome)).FileGood C :=
    fun outcome => h.file.record fun _ hcov => hcov.push_opened hfresh _ outcome
  have hgone : ∀ key s, (sessions.del (C.digest sid)).get key = some s →
      p.sessions.get key = some s := by
    intro key s hs
    rw [Table.get_del, hsessions, Table.get_set] at hs
    split at hs
    · cases hs
    · exact hs
  cases write with
  | ok => exact Inv.write (hfile .returned) (hopen _) (hopen _) h.current .ok
  | unsynced => exact Inv.write (hfile .unsynced) (hopen _) (hundo _) h.current .unsynced
  | failed =>
    have hback : (w.record (.refused sid)).ProcessGood C
        { p with sessions := sessions.del (C.digest sid) } :=
      ⟨hrev, (hcovers.sub hgone).push_refused hfresh⟩
    have hold : (w.record (.refused sid)).FileGood C :=
      h.file.record fun _ hcov => hcov.push_refused hfresh
    exact Inv.write hold hback hback h.current .failed
  | crashed replaced =>
    cases replaced with
    | true =>
      exact Inv.write (hfile .interrupted) (hopen _) (hundo _) h.current (.crashed true)
    | false => exact h.ended

theorem Inv.attemptLogin (h : w.Inv C) (hp : w.ProcessGood C p) (username password ip : String)
    (remember : Bool) {sid : String} (hfresh : w.Fresh sid) (write : Write) :
    (w.attemptLogin C p username password ip remember sid write).1.Inv C := by
  obtain ⟨haccount, hsessions⟩ := checkLogin_frame p C w.settings w.now username password ip
  simp only [World.attemptLogin]
  split
  · rename_i q e hcheck
    rw [hcheck] at haccount hsessions
    exact h.runs (hp.congr haccount hsessions)
  · rename_i q hcheck
    rw [hcheck] at haccount hsessions
    exact h.openSession (hp.congr haccount hsessions) remember hfresh write

theorem Inv.validate (hC : Function.Injective C.digest) (h : w.Inv C) (hp : w.ProcessGood C p)
    (hrun : w.process = some p) (sid : String) (now : Nat) (write : Write) :
    (w.validate C p sid now write).1.Inv C := by
  have hused : (w.record (.used sid now)).ProcessGood C p :=
    ⟨hp.1, hp.2.push_used sid now⟩
  have hfile : (w.record (.used sid now)).FileGood C :=
    h.file.record fun _ hcov => hcov.push_used sid now
  simp only [World.validate]
  split
  · exact h
  · rename_i s hs
    split
    · exact h.runs ⟨hp.1, hp.2.del _⟩
    · split
      · have hrenewed : (w.record (.used sid now)).ProcessGood C
            { p with sessions := p.sessions.set (C.digest sid) { s with lastSeen := now } } :=
          ⟨hp.1, hp.2.renew hC hs now⟩
        cases write with
        | ok => exact Inv.write hfile hrenewed hrenewed h.current .ok
        | failed => exact Inv.write hfile hrenewed hused h.current .failed
        | unsynced => exact Inv.write hfile hrenewed hused h.current .unsynced
        | crashed replaced =>
          exact Inv.write hfile hrenewed hused h.current (.crashed replaced)
      · exact ⟨h.current, hfile, fun q hq => by cases hrun.symm.trans hq; exact hused⟩

theorem Inv.destroy (h : w.Inv C) (hp : w.ProcessGood C p) (sid : String) (write : Write) :
    (w.destroy C p sid write).1.Inv C := by
  have hwithout : w.ProcessGood C { p with sessions := p.sessions.del (C.digest sid) } :=
    ⟨hp.1, hp.2.del _⟩
  simp only [World.destroy]
  cases write with
  | ok =>
    have hgone : (w.record (.destroyed sid)).ProcessGood C
        { p with sessions := p.sessions.del (C.digest sid) } := ⟨hp.1, hp.2.destroy sid⟩
    have hknown : p.account.revision ∈ w.revisions := hp.1.symm ▸ h.current
    exact ⟨h.current, fun f hf => by cases hf; exact ⟨hknown, fun _ => hgone.2⟩,
      fun q hq => by cases hq; exact hgone⟩
  | failed => exact Inv.write h.file hwithout hp h.current .failed
  | unsynced => exact Inv.write h.file hwithout hp h.current .unsynced
  | crashed replaced => exact Inv.write h.file hwithout hp h.current (.crashed replaced)

theorem Inv.sweep (h : w.Inv C) (hp : w.ProcessGood C p) (write : Write) :
    (w.sweep p write).Inv C := by
  have hkept : w.ProcessGood C
      { p with sessions := p.sessions.filter fun _ s => p.sessionActive s w.now } :=
    ⟨hp.1, hp.2.filter _⟩
  have hpruned : w.ProcessGood C (Process.pruneFails
      { p with sessions := p.sessions.filter fun _ s => p.sessionActive s w.now } w.settings
      w.now) := hkept.congr rfl rfl
  exact Inv.write h.file hkept hpruned h.current write

/-- STEP: the account changes with the file. What the session file holds is of an older revision
    from here on. -/
theorem Inv.commitAccount (h : w.Inv C) (hp : w.ProcessGood C p) (req : UpdateAccount)
    (encoded : Option String) {revision : String} (hnew : revision ∉ w.revisions)
    (config : ConfigWrite) (write : Write) :
    (w.commitAccount p req encoded revision config write).1.Inv C := by
  simp only [World.commitAccount]
  split
  · exact h.runs hp
  · set changed := p.changed req.username revision _ with hchanged
    have hrev : changed.account.revision = revision := rfl
    have hfile : (w.replaceConfig changed).FileGood C := by
      intro f hf
      obtain ⟨hknown, _⟩ := h.file f hf
      refine ⟨List.mem_cons_of_mem _ hknown, fun hsame => absurd ?_ hnew⟩
      have hsame' : f.accountRevision = revision := hsame
      rwa [hsame'] at hknown
    have hgood : (w.replaceConfig changed).ProcessGood C changed := ⟨rfl, Covers.empty⟩
    have hcur : (w.replaceConfig changed).config.accountRevision ∈
        (w.replaceConfig changed).revisions := List.mem_cons_self
    cases config with
    | failed => exact h.runs hp
    | crashed replaced =>
      cases replaced with
      | false => exact h.ended
      | true => exact ⟨hcur, hfile, fun q hq => by cases hq⟩
    | ok => exact Inv.write hfile hgood hgood hcur write

theorem Inv.changeAccount (h : w.Inv C) (hp : w.ProcessGood C p) (req : UpdateAccount) (ip : String)
    (sid : Option String) (readable : Bool) (encoded : Option String) {revision : String}
    (hnew : revision ∉ w.revisions) (config : ConfigWrite) (write : Write) :
    (w.changeAccount C p req ip sid readable encoded revision config write).1.Inv C := by
  obtain ⟨haccount, hsessions⟩ := checkPassword_frame p C w.settings w.now req ip
  simp only [World.changeAccount]
  split
  · exact h
  · split
    · exact h
    · split
      · rename_i q refusal hcheck
        rw [hcheck] at haccount hsessions
        exact h.runs (hp.congr haccount hsessions)
      · rename_i q hcheck
        rw [hcheck] at haccount hsessions
        have hq : w.ProcessGood C q := hp.congr haccount hsessions
        split
        · exact h.runs hq
        · split
          · exact h.runs hq
          · exact h.commitAccount hq req encoded hnew config write

theorem Inv.restart (h : w.Inv C) (dev : Option (String × String)) (write : Write) :
    (w.restart C dev write).Inv C := by
  have hempty : w.ProcessGood C (Process.init C w.config w.settings dev) := ⟨rfl, Covers.empty⟩
  have hloaded : ∀ file, w.file = some file → w.ProcessGood C
      { Process.init C w.config w.settings dev with
        sessions := (Process.init C w.config w.settings dev).loadSessions C file dev w.now } := by
    intro file hf
    refine ⟨rfl, ?_⟩
    simp only [Process.loadSessions]
    split
    · rename_i hsame
      exact (((h.file file hf).2 hsame.2).filter _).freeze _
    · exact Covers.empty
  have hstart : ∀ p, w.ProcessGood C p → ((w.persist p write).resume p write).Inv C :=
    fun p hp => Inv.write h.file hp hp h.current write
  simp only [World.restart]
  split
  · cases write with
    | ok => exact hstart _ hempty
    | failed | unsynced | crashed replaced => exact (hstart _ hempty).ended
  · rename_i file hf
    split
    · exact h.ended
    · cases write with
      | ok => exact hstart _ (hloaded file hf)
      | failed | unsynced | crashed replaced => exact (hstart _ (hloaded file hf)).ended

/-- STEP: every move keeps the invariant. -/
theorem Inv.step (hC : Function.Injective C.digest) (h : w.Inv C) {m : Move}
    (hs : w.step C m = some w') : w'.Inv C := by
  cases m with
  | wait ms => cases hs; exact ⟨h.current, h.file, h.process⟩
  | configure settings => cases hs; exact ⟨h.current, h.file, h.process⟩
  | login username password ip remember sid write =>
    simp only [World.step, Option.ite_none_right_eq_some] at hs
    obtain ⟨hfresh, hs⟩ := hs
    obtain ⟨p, hp, rfl⟩ := Option.map_eq_some_iff.mp hs
    exact h.attemptLogin (h.process p hp) username password ip remember hfresh write
  | issue remember sid write =>
    simp only [World.step, Option.ite_none_right_eq_some] at hs
    obtain ⟨hfresh, hs⟩ := hs
    obtain ⟨p, hp, rfl⟩ := Option.map_eq_some_iff.mp hs
    exact h.openSession (h.process p hp) remember hfresh write
  | validate sid now write =>
    simp only [World.step, Option.ite_none_right_eq_some] at hs
    obtain ⟨p, hp, rfl⟩ := Option.map_eq_some_iff.mp hs.2
    exact h.validate hC (h.process p hp) hp sid now write
  | destroy sid write =>
    obtain ⟨p, hp, rfl⟩ := Option.map_eq_some_iff.mp hs
    exact h.destroy (h.process p hp) sid write
  | sweep write =>
    obtain ⟨p, hp, rfl⟩ := Option.map_eq_some_iff.mp hs
    exact h.sweep (h.process p hp) write
  | change req ip sid readable encoded revision config write =>
    simp only [World.step, Option.ite_none_right_eq_some] at hs
    obtain ⟨hnew, hs⟩ := hs
    obtain ⟨p, hp, rfl⟩ := Option.map_eq_some_iff.mp hs
    exact h.changeAccount (h.process p hp) req ip sid readable encoded hnew config write
  | crash => cases hs; exact h.ended
  | restart dev write =>
    simp only [World.step, Option.ite_none_right_eq_some, Option.some.injEq] at hs
    obtain ⟨_, rfl⟩ := hs
    exact h.restart dev write

/-! ### Acceptance -/

end World

/-- How long the session may go unseen, in seconds. -/
def Session.idleLimit (s : Session) : Nat :=
  if s.remember then rememberSecs else max (s.idleSecs.getD 0) 1

namespace World

/-- What an accepted id stands for: one login under the revision in force, with nothing since that
    ended its session, and the limits it was opened with. -/
def Justified (w : World) (sid : String) (now : Nat) : Prop :=
  ∃ newer older opened outcome,
    w.history = newer ++ .opened sid w.config.accountRevision opened outcome :: older ∧
    (∀ e ∈ older, e.sid ≠ some sid) ∧
    (∀ revision s outcome, .opened sid revision s outcome ∉ newer) ∧
    (∀ revision, .replaced revision ∉ newer) ∧
    .destroyed sid ∉ w.history ∧ .refused sid ∉ w.history ∧
    now < opened.absExpire ∧
    ∃ seen, (seen = opened.lastSeen ∨ .used sid seen ∈ newer) ∧
      now - seen < opened.idleLimit * 1000

/-- INVERSION: an accepted id has an active session. -/
theorem validate_eq_some {w : World} {p : Process} {sid username : String} {now : Nat}
    {write : Write} (h : (w.validate C p sid now write).2 = some username) :
    ∃ s, p.sessions.get (C.digest sid) = some s ∧ p.sessionActive s now = true := by
  simp only [World.validate] at h
  split at h
  · cases h
  · rename_i s hs
    split at h
    · cases h
    · rename_i hactive
      exact ⟨s, hs, by simpa using hactive⟩

theorem Standing.justified {w : World} {sid : String} {now : Nat} {opened s : Session}
    {newer : List Event} (h : Standing w.history sid w.config.accountRevision opened newer)
    (hs : s.Continues opened sid newer) {p : Process} (hactive : p.sessionActive s now = true) :
    w.Justified sid now := by
  obtain ⟨outcome, older, hhist, holder, hnewer⟩ := h
  have hspares : ∀ e, e.sid = some sid → ¬ e.Spares sid → e ≠ .opened sid
      w.config.accountRevision opened outcome → e ∉ w.history := by
    intro e he hends hne hmem
    rw [hhist] at hmem
    rcases List.mem_append.mp hmem with hmem | hmem
    · exact hends (hnewer e hmem)
    · rcases List.mem_cons.mp hmem with rfl | hmem
      · exact hne rfl
      · exact holder e hmem he
  obtain ⟨habs, hremember, hidle⟩ := hs.limits
  obtain ⟨secs, hsecs⟩ := Option.isSome_iff_exists.mp hs.frozen
  have hsecs' : opened.idleSecs = some secs := hidle.symm.trans hsecs
  simp only [Process.sessionActive, Bool.and_eq_true, decide_eq_true_eq, hsecs,
    Option.getD_some] at hactive
  obtain ⟨⟨_, hexpire⟩, hseen⟩ := hactive
  refine ⟨newer, older, opened, outcome, hhist, holder, ?_, ?_, ?_, ?_, habs ▸ hexpire,
    s.lastSeen, hs.seen, ?_⟩
  · exact fun _ _ _ hmem => (hnewer _ hmem) rfl
  · exact fun _ hmem => hnewer _ hmem
  · exact hspares _ rfl (fun hne => hne rfl) (by simp)
  · exact hspares _ rfl (fun hne => hne rfl) (by simp)
  · simpa [Session.idleLimit, hsecs', hremember] using hseen

/-- SAFETY: in every run of a data directory, whatever is accepted is justified. -/
theorem logins_final (hC : Function.Injective C.digest) {config : AuthConfig}
    {settings : LoginSettings} {start : Nat} {moves : List Move} {w : World} {p : Process}
    {sid username : String} {now : Nat} {write : Write}
    (hrun : Machine.exec (step C) (fresh config settings start) moves = some w)
    (hp : w.process = some p) (haccept : (w.validate C p sid now write).2 = some username) :
    w.Justified sid now := by
  have hreach : Machine.Reaches (step C) (fresh config settings start) w := ⟨moves, hrun⟩
  have hstart : (fresh config settings start).Inv C :=
    ⟨List.mem_cons_self, fun f hf => (by cases hf), fun q hq => (by cases hq)⟩
  have hinv : w.Inv C := hreach.invariant (I := Inv C) (fun _ _ _ h hs => h.step hC hs) hstart
  obtain ⟨s, hs, hactive⟩ := validate_eq_some haccept
  obtain ⟨sid', opened, newer, hkey, hstand, hcont⟩ := (hinv.process p hp).2 _ s hs
  obtain rfl : sid' = sid := hC hkey
  exact Standing.justified hstand hcont hactive

/-! ### A run -/

/-- An id and its digest. -/
def adminId : String := "19b25856e1c150ca834cffc8b59b23adbd0ec0389e58eb22b3b64768098d002b"

def adminKey : String := "97a7b361286a6aa23b0c2ef713152013804c353adf047f90a7e1c9e6487a852b"

def adminConfig : AuthConfig :=
  { username := "admin", accountRevision := "",
    passwordHash := "$argon2id$v=19$m=19456,t=2,p=1$Y0ea1poJCyWCd+yPum+ZQQ$0EuY9I6Pi8wVxq5awFCAHNbc/UKPtfnmXE4W54BzQPo" }

def defaultSettings : LoginSettings := ⟨12 * 3600, 2 * 3600, 10, 300⟩

/-- The digest is right on `adminId`, and a bijection elsewhere. -/
def sampleCrypto : Crypto :=
  { digest := Equiv.swap adminId adminKey, parsePasswordHash := some, verify := fun _ _ => false }

/-- A session outlives the process it was opened in. -/
theorem logins_final_restarted :
    ∃ w p, Machine.exec (step sampleCrypto) (fresh adminConfig defaultSettings 1000)
        [.restart none .ok, .issue false adminId .ok, .wait 5000, .crash, .restart none .ok] =
          some w ∧ w.process = some p ∧
      (w.validate sampleCrypto p adminId 6000 .ok).2 = some "admin" ∧ w.Justified adminId 6000 := by
  obtain ⟨w, hrun, haccept⟩ : ∃ w,
      Machine.exec (step sampleCrypto) (fresh adminConfig defaultSettings 1000)
        [.restart none .ok, .issue false adminId .ok, .wait 5000, .crash, .restart none .ok] =
          some w ∧ w.process.map (fun p => (w.validate sampleCrypto p adminId 6000 .ok).2) =
            some (some "admin") := Machine.exec_eval (by decide +kernel)
  obtain ⟨p, hp, haccept⟩ := Option.map_eq_some_iff.mp haccept
  exact ⟨w, p, hrun, hp, haccept, logins_final (Equiv.injective _) hrun hp haccept⟩

/-- The process ends after the session file is replaced and before the login returns: its session
    is accepted after the restart although no login has returned it. -/
theorem interrupted_login_accepted :
    ∃ w p, Machine.exec (step sampleCrypto) (fresh adminConfig defaultSettings 1000)
        [.restart none .ok, .issue false adminId (.crashed true), .restart none .ok] = some w ∧
      w.process = some p ∧ (w.validate sampleCrypto p adminId 1000 .ok).2 = some "admin" ∧
      ∀ revision s, .opened adminId revision s .returned ∉ w.history := by
  obtain ⟨w, hrun, haccept, hhist⟩ : ∃ w,
      Machine.exec (step sampleCrypto) (fresh adminConfig defaultSettings 1000)
        [.restart none .ok, .issue false adminId (.crashed true), .restart none .ok] = some w ∧
      w.process.map (fun p => (w.validate sampleCrypto p adminId 1000 .ok).2) =
        some (some "admin") ∧
      w.history = [.opened adminId "" ⟨"admin", 43201000, 1000, false, some 7200⟩ .interrupted] :=
    Machine.exec_eval (by decide +kernel)
  obtain ⟨p, hp, haccept⟩ := Option.map_eq_some_iff.mp haccept
  exact ⟨w, p, hrun, hp, haccept, fun revision s hmem => by rw [hhist] at hmem; simp at hmem⟩

end World

end Gamer.Auth
