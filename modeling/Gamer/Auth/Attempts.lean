import Mathlib.Data.List.Basic
import Mathlib.Tactic.SplitIfs
import Gamer.Auth.Logins

/-! How often a password can be tried. A failed check is noted under the address and the user name
    it came from; while as many are noted as the settings allow, the next call under that key is
    refused before its password is looked at:

        window          t₁   t₂  …  tₘₐₓ                 refused
        ────────────────┼────┼───────┼───────────────────┼───▶
                        └── noted, none older than the window ──┘

    Notes are given up when the right password comes, when the account changes, and when more keys
    are noted than the table may hold.                                                        -/

namespace Gamer.Auth
open Gamer.Lib Gamer.Lib.Machine

/-- What became of the password a call brought. -/
inductive Verdict where
  | failed | refused | accepted
  deriving DecidableEq, Repr

namespace Process

def loginVerdict : Option LoginError → Verdict
  | none => .accepted
  | some (.rateLimited _) => .refused
  | some _ => .failed

def changeVerdict : Option Refusal → Verdict
  | none => .accepted
  | some refusal => if refusal.1 = 429 then .refused else .failed

end Process

namespace World
variable (C : Crypto)

/-- The password check of a call, with the key it is counted under. -/
def checked (w : World) (p : Process) : Move → Option (LoginKey × Verdict)
  | .login username password ip _ _ _ =>
    some (⟨ip, username⟩,
      Process.loginVerdict (p.checkLogin C w.settings w.now username password ip).2)
  | .change req ip sid _ _ _ _ _ =>
    if req.check = none ∧ p.checkAccount C req sid w.now = none then
      some (⟨ip, p.account.username⟩,
        Process.changeVerdict (p.checkPassword C w.settings w.now req ip).2)
    else none
  | _ => none

def verdicts (w : World) (m : Move) : List (LoginKey × Verdict) :=
  w.process.elim [] fun p => (w.checked C p m).toList

/-- How many checks of a run failed under a key. -/
def failures (key : LoginKey) (w : World) (moves : List Move) : Nat :=
  (log (step C) (verdicts C) w moves).count (key, .failed)

/-- Time passes, or one of the two calls that check a password comes. -/
def isCall : Move → Bool
  | .wait _ | .login .. | .change .. => true
  | _ => false

/-- An account change that succeeds. -/
def changes (w : World) : Move → Bool
  | .change req ip sid readable encoded revision config write =>
    w.process.any fun p =>
      (w.changeAccount C p req ip sid readable encoded revision config write).2.toBool
  | _ => false

/-- In between, the right password has not come for the key and the account has not changed. -/
def Quiet (key : LoginKey) (w : World) (m : Move) : Prop :=
  isCall m = true ∧ (key, .accepted) ∉ w.verdicts C m ∧ w.changes C m = false

/-- The table of failures does not outgrow its bound at this call. -/
def Holds (w : World) : Move → Prop
  | .login username _ ip _ _ _ => ∀ p, w.process = some p →
    ((p.pruneFails w.settings w.now).fails.set ⟨ip, username⟩ []).entries.length ≤
      maxTrackedLoginKeys
  | _ => True

/-- The length of the window in milliseconds. -/
def window (settings : LoginSettings) : Nat := max settings.loginWindowSecs 1 * 1000

end World

/-! ### Notes of one key -/

/-- How many of the failures noted under a key are not older than `start`. -/
def recent (start : Nat) (fails : Table LoginKey (List Nat)) (key : LoginKey) : Nat :=
  (((fails.get key).getD []).filter fun t => start ≤ t).length

theorem recent_le (start : Nat) (fails : Table LoginKey (List Nat)) (key : LoginKey) :
    recent start fails key ≤ ((fails.get key).getD []).length := List.length_filter_le _ _

theorem recent_set_ne {start : Nat} {fails : Table LoginKey (List Nat)} {key key' : LoginKey}
    (h : key ≠ key') (attempts : List Nat) :
    recent start (fails.set key' attempts) key = recent start fails key := by
  rw [recent, recent, Table.get_set_ne h]

theorem recent_del_ne {start : Nat} {fails : Table LoginKey (List Nat)} {key key' : LoginKey}
    (h : key ≠ key') : recent start (fails.del key') key = recent start fails key := by
  rw [recent, recent, Table.get_del, if_neg h]

/-- One more failure. -/
theorem recent_push {start now : Nat} (h : start ≤ now) (fails : Table LoginKey (List Nat))
    (key : LoginKey) :
    recent start (fails.set key ((fails.get key).getD [] ++ [now])) key =
      recent start fails key + 1 := by
  rw [recent, recent, Table.get_set_self, Option.getD_some, List.filter_append]
  simp [h]

namespace Process
variable {p : Process} {settings : LoginSettings} {now start : Nat}

theorem attempts_pruneFails (p : Process) (settings : LoginSettings) (now : Nat) (key : LoginKey) :
    (p.pruneFails settings now).attempts key =
      (p.attempts key).filter fun t => now - t < World.window settings := by
  have hmap := Table.get_map p.fails
    (fun attempts => attempts.filter fun t => now - t < World.window settings) key
  rw [attempts, attempts, pruneFails]
  dsimp only
  change (Table.get (Table.filter (Table.map p.fails fun attempts => attempts.filter fun t =>
    now - t < World.window settings) fun _ attempts => !attempts.isEmpty) key).getD [] = _
  cases hget : Table.get (Table.filter (Table.map p.fails fun attempts => attempts.filter fun t =>
      now - t < World.window settings) fun _ attempts => !attempts.isEmpty) key with
  | some v =>
    rw [Table.get_filter_eq_some, hmap] at hget
    obtain ⟨old, hold, rfl⟩ := Option.map_eq_some_iff.mp hget.1
    rw [hold]
    rfl
  | none =>
    cases hold : p.fails.get key with
    | none => rfl
    | some old =>
      -- an entry that goes had nothing left in it
      rw [hold, Option.map_some] at hmap
      by_cases hempty : (old.filter fun t => decide (now - t < World.window settings)) = []
      · exact hempty.symm
      · have hkept := (Table.get_filter_eq_some (p := fun _ attempts => !attempts.isEmpty)).mpr
          ⟨hmap, by simpa using hempty⟩
        rw [hget] at hkept
        cases hkept

/-- What is not older than the window stays. -/
theorem recent_pruneFails (htime : now - start < World.window settings) (key : LoginKey) :
    recent start (p.pruneFails settings now).fails key = recent start p.fails key := by
  have hattempts := attempts_pruneFails p settings now key
  rw [attempts, attempts] at hattempts
  rw [recent, recent, hattempts, List.filter_filter]
  refine congrArg List.length (List.filter_congr fun t _ => ?_)
  by_cases h : start ≤ t
  · simp only [h, decide_true, Bool.true_and, decide_eq_true_eq]
    omega
  · simp [h]

theorem limited_iff (hmax : 0 < settings.loginMaxFails) (key : LoginKey) :
    ((p.fails.get key).any fun attempts => settings.loginMaxFails ≤ attempts.length) = true ↔
      settings.loginMaxFails ≤ (p.attempts key).length := by
  rw [attempts]
  cases p.fails.get key with
  | none =>
    simp only [Option.any_none, Bool.false_eq_true, Option.getD_none, List.length_nil, false_iff]
    omega
  | some old => simp

/-! ### One check -/

section Check
variable {C : Crypto}

/-- A login is refused while enough is noted, and else its password is checked. -/
theorem checkLogin_cases (C : Crypto) (p : Process) (now : Nat) (hmax : 0 < settings.loginMaxFails) (username password ip : String) :
    (settings.loginMaxFails ≤ ((p.pruneFails settings now).attempts ⟨ip, username⟩).length ∧
      ∃ secs, p.checkLogin C settings now username password ip =
        (p.pruneFails settings now, some (.rateLimited secs))) ∨
    ((p.pruneFails settings now).attempts ⟨ip, username⟩).length < settings.loginMaxFails ∧
      (p.checkLogin C settings now username password ip =
          ({ p.pruneFails settings now with
              fails := (p.pruneFails settings now).fails.del ⟨ip, username⟩ }, none) ∨
        p.checkLogin C settings now username password ip =
          ((p.pruneFails settings now).countFail settings now ⟨ip, username⟩, some .invalid)) := by
  have hlimited := limited_iff (p := p.pruneFails settings now) hmax ⟨ip, username⟩
  rw [checkLogin]
  dsimp only
  split_ifs with hlimit hright
  · exact .inl ⟨hlimited.mp hlimit, _, rfl⟩
  · exact .inr ⟨by rw [← not_le, ← hlimited]; exact hlimit, .inl rfl⟩
  · exact .inr ⟨by rw [← not_le, ← hlimited]; exact hlimit, .inr rfl⟩

theorem checkPassword_cases (C : Crypto) (p : Process) (now : Nat) (hmax : 0 < settings.loginMaxFails) (req : UpdateAccount)
    (ip : String) :
    (settings.loginMaxFails ≤
        ((p.pruneFails settings now).attempts ⟨ip, p.account.username⟩).length ∧
      p.checkPassword C settings now req ip =
        (p.pruneFails settings now, some (429, "too_many_attempts"))) ∨
    ((p.pruneFails settings now).attempts ⟨ip, p.account.username⟩).length <
        settings.loginMaxFails ∧
      (p.checkPassword C settings now req ip = (p.pruneFails settings now, none) ∨
        p.checkPassword C settings now req ip =
          ({ p.pruneFails settings now with
              fails := (p.pruneFails settings now).fails.set ⟨ip, p.account.username⟩
                ((p.pruneFails settings now).attempts ⟨ip, p.account.username⟩ ++ [now]) },
            some (403, "invalid_current_password"))) := by
  have hlimited := limited_iff (p := p.pruneFails settings now) hmax ⟨ip, p.account.username⟩
  rw [checkPassword]
  dsimp only
  split_ifs with hlimit hwrong
  · exact .inl ⟨hlimited.mp hlimit, rfl⟩
  · exact .inr ⟨by rw [← not_le, ← hlimited]; exact hlimit, .inr rfl⟩
  · exact .inr ⟨by rw [← not_le, ← hlimited]; exact hlimit, .inl rfl⟩

/-- Nothing is cut off and the table is kept: the failure is noted behind the others. -/
theorem fails_countFail {key : LoginKey}
    (hroom : (p.attempts key).length < settings.loginMaxFails)
    (hholds : (p.fails.set key []).entries.length ≤ maxTrackedLoginKeys) :
    (p.countFail settings now key).fails = p.fails.set key (p.attempts key ++ [now]) := by
  have hdrop : (p.attempts key ++ [now]).length - settings.loginMaxFails = 0 := by
    rw [List.length_append, List.length_singleton]
    omega
  have hlen : (p.fails.set key (p.attempts key ++ [now])).entries.length ≤ maxTrackedLoginKeys :=
    hholds
  rw [countFail]
  dsimp only
  rw [hdrop, List.drop_zero, if_neg (by omega)]

/-- What a check does to the notes of one key: a failed check under it is noted, and there was
    still room; otherwise they stay. -/
structure Counts (start max : Nat) (key : LoginKey) (fails fails' : Table LoginKey (List Nat))
    (verdict : LoginKey × Verdict) : Prop where
  noted : verdict = (key, .failed) → recent start fails' key = recent start fails key + 1 ∧
    recent start fails key < max
  kept : verdict ≠ (key, .failed) → recent start fails' key = recent start fails key

/-- STEP: a login's check. -/
theorem checkLogin_counts (hmax : 0 < settings.loginMaxFails) (hstart : start ≤ now)
    (htime : now - start < World.window settings) {key : LoginKey} {username password ip : String}
    (hquiet : (key, Verdict.accepted) ≠
      (⟨ip, username⟩, loginVerdict (p.checkLogin C settings now username password ip).2))
    (hholds : ((p.pruneFails settings now).fails.set ⟨ip, username⟩ []).entries.length ≤
      maxTrackedLoginKeys) :
    Counts start settings.loginMaxFails key p.fails
      (p.checkLogin C settings now username password ip).1.fails
      (⟨ip, username⟩, loginVerdict (p.checkLogin C settings now username password ip).2) := by
  have hprune := recent_pruneFails (p := p) htime key
  have hlen := recent_le start (p.pruneFails settings now).fails key
  rcases checkLogin_cases C p now hmax username password ip with
    ⟨hfull, secs, h⟩ | ⟨hroom, h | h⟩
  · rw [h]
    exact ⟨fun heq => by simp [loginVerdict] at heq, fun _ => hprune⟩
  · rw [h] at hquiet ⊢
    have hne : key ≠ ⟨ip, username⟩ := by
      rintro rfl
      exact hquiet rfl
    refine ⟨fun heq => by simp [loginVerdict] at heq, fun _ => ?_⟩
    dsimp only
    rw [recent_del_ne hne, hprune]
  · rw [h, fails_countFail hroom hholds]
    refine ⟨fun heq => ?_, fun hne => ?_⟩
    · obtain rfl : (⟨ip, username⟩ : LoginKey) = key := (Prod.mk.inj heq).1
      rw [attempts] at hroom ⊢
      exact ⟨by rw [recent_push hstart, hprune], by rw [← hprune]; omega⟩
    · have hother : key ≠ ⟨ip, username⟩ := fun heq => hne (by rw [heq]; rfl)
      rw [recent_set_ne hother, hprune]

/-- STEP: an account change's check. -/
theorem checkPassword_counts (C : Crypto) (p : Process) (hmax : 0 < settings.loginMaxFails)
    (hstart : start ≤ now) (htime : now - start < World.window settings) (key : LoginKey)
    (req : UpdateAccount) (ip : String) :
    Counts start settings.loginMaxFails key p.fails (p.checkPassword C settings now req ip).1.fails
      (⟨ip, p.account.username⟩, changeVerdict (p.checkPassword C settings now req ip).2) := by
  have hprune := recent_pruneFails (p := p) htime key
  have hlen := recent_le start (p.pruneFails settings now).fails key
  rcases checkPassword_cases C p now hmax req ip with
    ⟨hfull, h⟩ | ⟨hroom, h | h⟩
  · rw [h]
    exact ⟨fun heq => by simp [changeVerdict] at heq, fun _ => hprune⟩
  · rw [h]
    exact ⟨fun heq => by simp [changeVerdict] at heq, fun _ => hprune⟩
  · rw [h]
    refine ⟨fun heq => ?_, fun hne => ?_⟩
    · obtain rfl : (⟨ip, p.account.username⟩ : LoginKey) = key := (Prod.mk.inj heq).1
      rw [attempts] at hroom ⊢
      exact ⟨by rw [recent_push hstart, hprune], by rw [← hprune]; omega⟩
    · have hother : key ≠ ⟨ip, p.account.username⟩ := fun heq => hne (by rw [heq]; rfl)
      dsimp only
      rw [recent_set_ne hother, hprune]

/-- With as many failures noted as the settings allow, no password is looked at. -/
theorem checkLogin_refused (hmax : 0 < settings.loginMaxFails)
    (htime : now - start < World.window settings) {username password ip : String}
    (hfull : settings.loginMaxFails ≤ recent start p.fails ⟨ip, username⟩) :
    loginVerdict (p.checkLogin C settings now username password ip).2 = .refused := by
  have hlen := recent_le start (p.pruneFails settings now).fails ⟨ip, username⟩
  rw [recent_pruneFails htime] at hlen
  rcases checkLogin_cases C p now hmax username password ip with
    ⟨-, secs, h⟩ | ⟨hroom, -⟩
  · rw [h]
    rfl
  · rw [attempts] at hroom
    omega

theorem checkPassword_refused (hmax : 0 < settings.loginMaxFails)
    (htime : now - start < World.window settings) {req : UpdateAccount} {ip : String}
    (hfull : settings.loginMaxFails ≤ recent start p.fails ⟨ip, p.account.username⟩) :
    changeVerdict (p.checkPassword C settings now req ip).2 = .refused := by
  have hlen := recent_le start (p.pruneFails settings now).fails ⟨ip, p.account.username⟩
  rw [recent_pruneFails htime] at hlen
  rcases checkPassword_cases C p now hmax req ip with ⟨-, h⟩ | ⟨hroom, -⟩
  · rw [h]
    rfl
  · rw [attempts] at hroom
    omega

end Check

end Process

/-! ### One call -/

namespace World
variable {C : Crypto} {w w' : World}

/-- FRAME: opening a session does not touch the failures. -/
theorem openSession_fails (w : World) (p : Process) (remember : Bool) (sid : String)
    (write : Write) :
    (w.openSession C p remember sid write).1.settings = w.settings ∧
      (w.openSession C p remember sid write).1.now = w.now ∧
      ∀ q, (w.openSession C p remember sid write).1.process = some q → q.fails = p.fails := by
  rcases write with _ | _ | _ | ⟨_ | _⟩
  · exact ⟨rfl, rfl, fun q hq => by cases hq; rfl⟩
  · exact ⟨rfl, rfl, fun q hq => by cases hq; rfl⟩
  · exact ⟨rfl, rfl, fun q hq => by cases hq; rfl⟩
  · exact ⟨rfl, rfl, fun q hq => by cases hq⟩
  · exact ⟨rfl, rfl, fun q hq => by cases hq⟩

theorem attemptLogin_fails (w : World) (p : Process) (username password ip : String)
    (remember : Bool) (sid : String) (write : Write) :
    (w.attemptLogin C p username password ip remember sid write).1.settings = w.settings ∧
      (w.attemptLogin C p username password ip remember sid write).1.now = w.now ∧
      ∀ q, (w.attemptLogin C p username password ip remember sid write).1.process = some q →
        q.fails = (p.checkLogin C w.settings w.now username password ip).1.fails := by
  rw [attemptLogin]
  split
  · rename_i p' e heq
    rw [heq]
    exact ⟨rfl, rfl, fun q hq => by cases hq; rfl⟩
  · rename_i p' heq
    rw [heq]
    exact openSession_fails w p' remember sid write

theorem attemptLogin_error {p p' : Process} {username password ip : String} {e : LoginError}
    (remember : Bool) (sid : String) (write : Write)
    (h : p.checkLogin C w.settings w.now username password ip = (p', some e)) :
    w.attemptLogin C p username password ip remember sid write =
      ({ w with process := some p' }, .error e) := by
  rw [attemptLogin, h]

/-- FRAME: an account change that does not succeed leaves the failures to its check. -/
theorem commitAccount_fails (w : World) (p : Process) (req : UpdateAccount)
    (encoded : Option String) (revision : String) (config : ConfigWrite) (write : Write)
    (hfailed : (w.commitAccount p req encoded revision config write).2.toBool = false) :
    (w.commitAccount p req encoded revision config write).1.settings = w.settings ∧
      (w.commitAccount p req encoded revision config write).1.now = w.now ∧
      ∀ q, (w.commitAccount p req encoded revision config write).1.process = some q →
        q.fails = p.fails := by
  rw [commitAccount] at hfailed ⊢
  dsimp only at hfailed ⊢
  split_ifs at hfailed ⊢
  · exact ⟨rfl, rfl, fun q hq => by cases hq; rfl⟩
  all_goals
    rcases config with _ | _ | ⟨_ | _⟩
    · cases hfailed
    · exact ⟨rfl, rfl, fun q hq => by cases hq; rfl⟩
    · exact ⟨rfl, rfl, fun q hq => by cases hq⟩
    · exact ⟨rfl, rfl, fun q hq => by cases hq⟩

theorem changeAccount_fails (w : World) (p : Process) (req : UpdateAccount) (ip : String)
    (sid : Option String) (readable : Bool) (encoded : Option String) (revision : String)
    (config : ConfigWrite) (write : Write) (hprocess : w.process = some p)
    (hfailed : (w.changeAccount C p req ip sid readable encoded revision config write).2.toBool =
      false) :
    (w.changeAccount C p req ip sid readable encoded revision config write).1.settings =
        w.settings ∧
      (w.changeAccount C p req ip sid readable encoded revision config write).1.now = w.now ∧
      ∀ q, (w.changeAccount C p req ip sid readable encoded revision config write).1.process =
          some q →
        q.fails = if req.check = none ∧ p.checkAccount C req sid w.now = none then
          (p.checkPassword C w.settings w.now req ip).1.fails else p.fails := by
  rw [changeAccount] at hfailed ⊢
  split at hfailed
  · rename_i refusal hcheck
    rw [hcheck]
    refine ⟨rfl, rfl, fun q hq => ?_⟩
    rw [if_neg (by simp)]
    exact congrArg Process.fails (Option.some.inj (hq.symm.trans hprocess))
  · rename_i hcheck
    rw [hcheck]
    split at hfailed
    · rename_i refusal haccount
      rw [haccount]
      refine ⟨rfl, rfl, fun q hq => ?_⟩
      rw [if_neg (by simp)]
      exact congrArg Process.fails (Option.some.inj (hq.symm.trans hprocess))
    · rename_i haccount
      rw [haccount]
      split at hfailed
      · rename_i p' refusal hpassword
        rw [hpassword]
        exact ⟨rfl, rfl, fun q hq => by cases hq; rfl⟩
      · rename_i p' hpassword
        rw [hpassword]
        simp only [and_self, ↓reduceIte]
        split_ifs at hfailed ⊢
        · exact ⟨rfl, rfl, fun q hq => by cases hq; rfl⟩
        · exact ⟨rfl, rfl, fun q hq => by cases hq; rfl⟩
        · exact commitAccount_fails w p' req encoded revision config write hfailed

/-- What a move does to the notes of one key. -/
structure Moves (C : Crypto) (start : Nat) (key : LoginKey) (w : World) (m : Move) (w' : World) :
    Prop where
  settings : w'.settings = w.settings
  later : w.now ≤ w'.now
  counts : ∀ q, w'.process = some q → ∃ p, w.process = some p ∧
    recent start q.fails key = recent start p.fails key + (w.verdicts C m).count (key, .failed)
  room : (w.verdicts C m).count (key, .failed) = 0 ∨
    (w.verdicts C m).count (key, .failed) = 1 ∧
      ∃ p, w.process = some p ∧ recent start p.fails key < w.settings.loginMaxFails

theorem count_verdict {start max : Nat} {key : LoginKey} {fails fails' : Table LoginKey (List Nat)}
    {verdict : LoginKey × Verdict} (h : Process.Counts start max key fails fails' verdict) :
    recent start fails' key = recent start fails key + [verdict].count (key, .failed) ∧
      ([verdict].count (key, .failed) = 0 ∨
        [verdict].count (key, .failed) = 1 ∧ recent start fails key < max) := by
  rw [List.count_singleton]
  by_cases hv : verdict = (key, .failed)
  · rw [if_pos (by simpa using hv)]
    exact ⟨(h.noted hv).1, .inr ⟨rfl, (h.noted hv).2⟩⟩
  · rw [if_neg (by simpa using hv)]
    exact ⟨h.kept hv, .inl rfl⟩

/-- STEP: time passes or a call comes. -/
theorem step_moves {key : LoginKey} {start : Nat} {m : Move}
    (hmax : 0 < w.settings.loginMaxFails) (hquiet : w.Quiet C key m) (hholds : w.Holds m)
    (hstart : start ≤ w.now) (htime : w.now - start < window w.settings)
    (h : w.step C m = some w') : Moves C start key w m w' := by
  obtain ⟨hcall, haccepted, hchanges⟩ := hquiet
  cases m with
  | wait ms =>
    cases h
    have hnone : w.verdicts C (.wait ms) = [] := by
      rw [verdicts]
      cases w.process <;> rfl
    rw [hnone] at haccepted
    refine ⟨rfl, Nat.le_add_right _ _, fun q hq => ⟨q, hq, ?_⟩, .inl ?_⟩
    · rw [hnone]
      rfl
    · rw [hnone]
      rfl
  | login username password ip remember sid write =>
    rw [step] at h
    split_ifs at h
    obtain ⟨p, hp, rfl⟩ := Option.map_eq_some_iff.mp h
    have hverdicts : w.verdicts C (.login username password ip remember sid write) =
        [(⟨ip, username⟩,
          Process.loginVerdict (p.checkLogin C w.settings w.now username password ip).2)] := by
      rw [verdicts, hp]
      rfl
    rw [hverdicts, List.mem_singleton] at haccepted
    have hcounts := Process.checkLogin_counts hmax hstart htime haccepted (hholds p hp)
    obtain ⟨hsettings, hnow, hfails⟩ := attemptLogin_fails (C := C) w p username password ip
      remember sid write
    obtain ⟨hsum, hroom⟩ := count_verdict hcounts
    refine ⟨hsettings, Nat.le_of_eq hnow.symm, fun q hq => ⟨p, hp, ?_⟩,
      hverdicts ▸ hroom.imp_right fun ⟨hone, hlt⟩ => ⟨hone, p, hp, hlt⟩⟩
    rw [hfails q hq, hverdicts]
    exact hsum
  | change req ip sid readable encoded revision config write =>
    rw [step] at h
    split_ifs at h
    obtain ⟨p, hp, rfl⟩ := Option.map_eq_some_iff.mp h
    rw [changes, hp] at hchanges
    obtain ⟨hsettings, hnow, hfails⟩ :=
      changeAccount_fails w p req ip sid readable encoded revision config write hp hchanges
    by_cases hchecked : req.check = none ∧ p.checkAccount C req sid w.now = none
    · have hverdicts : w.verdicts C
          (.change req ip sid readable encoded revision config write) =
          [(⟨ip, p.account.username⟩,
            Process.changeVerdict (p.checkPassword C w.settings w.now req ip).2)] := by
        rw [verdicts, hp, Option.elim_some, checked, if_pos hchecked]
        rfl
      have hcounts := Process.checkPassword_counts C p hmax hstart htime key req ip
      obtain ⟨hsum, hroom⟩ := count_verdict hcounts
      refine ⟨hsettings, Nat.le_of_eq hnow.symm, fun q hq => ⟨p, hp, ?_⟩,
        hverdicts ▸ hroom.imp_right fun ⟨hone, hlt⟩ => ⟨hone, p, hp, hlt⟩⟩
      rw [hfails q hq, if_pos hchecked, hverdicts]
      exact hsum
    · have hverdicts : w.verdicts C
          (.change req ip sid readable encoded revision config write) = [] := by
        rw [verdicts, hp, Option.elim_some, checked, if_neg hchecked]
        rfl
      refine ⟨hsettings, Nat.le_of_eq hnow.symm, fun q hq => ⟨p, hp, ?_⟩, .inl ?_⟩
      · rw [hfails q hq, if_neg hchecked, hverdicts]
        rfl
      · rw [hverdicts]
        rfl
  | configure | issue | validate | destroy | sweep | crash | restart => cases hcall

/-! ### A window -/

/-- The clock never goes back, and the settings stay. -/
theorem exec_frame {key : LoginKey} {moves : List Move}
    (hquiet : Along (step C) (fun w m => w.Quiet C key m) w moves)
    (hrun : exec (step C) w moves = some w') :
    w.now ≤ w'.now ∧ w'.settings = w.settings := by
  induction moves generalizing w with
  | nil => cases hrun; exact ⟨Nat.le_refl _, rfl⟩
  | cons m moves ih =>
    obtain ⟨w₁, hstep, hrest⟩ := exec_cons_eq_some.mp hrun
    obtain ⟨hm, hlater⟩ := hquiet
    obtain ⟨hnow, hsettings⟩ := ih (hlater w₁ hstep) hrest
    have hone : w.now ≤ w₁.now ∧ w₁.settings = w.settings := by
      obtain ⟨hcall, -, hchanges⟩ := hm
      cases m with
      | wait ms => cases hstep; exact ⟨Nat.le_add_right _ _, rfl⟩
      | login username password ip remember sid write =>
        rw [step] at hstep
        split_ifs at hstep
        obtain ⟨p, hp, rfl⟩ := Option.map_eq_some_iff.mp hstep
        obtain ⟨hs, hn, -⟩ := attemptLogin_fails (C := C) w p username password ip remember sid write
        exact ⟨Nat.le_of_eq hn.symm, hs⟩
      | change req ip sid readable encoded revision config write =>
        rw [step] at hstep
        split_ifs at hstep
        obtain ⟨p, hp, rfl⟩ := Option.map_eq_some_iff.mp hstep
        rw [changes, hp] at hchanges
        obtain ⟨hs, hn, -⟩ :=
          changeAccount_fails w p req ip sid readable encoded revision config write hp hchanges
        exact ⟨Nat.le_of_eq hn.symm, hs⟩
      | configure | issue | validate | destroy | sweep | crash | restart => cases hcall
    exact ⟨Nat.le_trans hone.1 hnow, hsettings.trans hone.2⟩

/-- RUN: the failed checks of a window are all noted, and there was room for each. -/
theorem failures_noted {key : LoginKey} {start : Nat} {moves : List Move}
    (hmax : 0 < w.settings.loginMaxFails)
    (hquiet : Along (step C) (fun w m => w.Quiet C key m) w moves)
    (hholds : Along (step C) Holds w moves) (hstart : start ≤ w.now)
    (hrun : exec (step C) w moves = some w') (htime : w'.now - start < window w.settings)
    {n : Nat} (hn : n ≤ w.settings.loginMaxFails)
    (hnoted : ∀ p, w.process = some p → n ≤ recent start p.fails key) :
    n + failures C key w moves ≤ w.settings.loginMaxFails ∧
      ∀ p, w'.process = some p → n + failures C key w moves ≤ recent start p.fails key := by
  induction moves generalizing w n with
  | nil =>
    cases hrun
    exact ⟨hn, hnoted⟩
  | cons m moves ih =>
    obtain ⟨w₁, hstep, hrest⟩ := exec_cons_eq_some.mp hrun
    have hnow := (exec_frame (hquiet.2 w₁ hstep) hrest).1
    have hone : exec (step C) w [m] = some w₁ := exec_cons_eq_some.mpr ⟨w₁, hstep, rfl⟩
    have hquiet₁ : Along (step C) (fun w m => w.Quiet C key m) w [m] :=
      ⟨hquiet.1, fun _ _ => trivial⟩
    have hnow₁ := (exec_frame hquiet₁ hone).1
    have hmoves := step_moves hmax hquiet.1 hholds.1 hstart (by omega) hstep
    have hsum : n + failures C key w (m :: moves) =
        (n + (w.verdicts C m).count (key, .failed)) + failures C key w₁ moves := by
      rw [failures, failures, log_cons hstep, List.count_append]
      omega
    have hroom : n + (w.verdicts C m).count (key, .failed) ≤ w.settings.loginMaxFails := by
      rcases hmoves.room with hzero | ⟨hone, p, hp, hlt⟩
      · omega
      · have := hnoted p hp
        omega
    rw [hsum, ← hmoves.settings]
    refine ih (by rw [hmoves.settings]; exact hmax) (hquiet.2 w₁ hstep) (hholds.2 w₁ hstep)
      (by omega) hrest (by rw [hmoves.settings]; exact htime) (by rw [hmoves.settings]; exact hroom)
      fun q hq => ?_
    obtain ⟨p, hp, hrecent⟩ := hmoves.counts q hq
    have := hnoted p hp
    omega

theorem verdict_refused {key : LoginKey} {start : Nat} {m : Move} {verdict : Verdict} {p : Process}
    (hmax : 0 < w.settings.loginMaxFails) (htime : w.now - start < window w.settings)
    (hp : w.process = some p) (hfull : w.settings.loginMaxFails ≤ recent start p.fails key)
    (hv : (key, verdict) ∈ w.verdicts C m) : verdict = .refused := by
  rw [verdicts, hp, Option.elim_some, Option.mem_toList] at hv
  cases m with
  | login username password ip remember sid write =>
    obtain ⟨rfl, rfl⟩ := Prod.mk.inj (Option.some.inj hv)
    exact Process.checkLogin_refused hmax htime hfull
  | change req ip sid readable encoded revision config write =>
    rw [checked] at hv
    split_ifs at hv
    obtain ⟨rfl, rfl⟩ := Prod.mk.inj (Option.some.inj hv)
    exact Process.checkPassword_refused hmax htime hfull
  | wait | configure | issue | validate | destroy | sweep | crash | restart => cases hv

/-- RULE: in a window in which the right password has not come, the account has not changed and
    the table has not outgrown its bound, no more checks fail than the settings allow; once so many
    have, every further call is refused before its password is looked at. -/
theorem attempts_bounded (C : Crypto) {w w' : World} {key : LoginKey} {moves : List Move}
    (hmax : 0 < w.settings.loginMaxFails)
    (hquiet : Along (step C) (fun w m => w.Quiet C key m) w moves)
    (hholds : Along (step C) Holds w moves) (hrun : exec (step C) w moves = some w')
    (htime : w'.now - w.now < window w.settings) :
    failures C key w moves ≤ w.settings.loginMaxFails ∧
      (failures C key w moves = w.settings.loginMaxFails →
        ∀ m verdict, (key, verdict) ∈ w'.verdicts C m → verdict = .refused) := by
  obtain ⟨hbound, hnoted⟩ := failures_noted (n := 0) hmax hquiet hholds (Nat.le_refl _) hrun htime
    (Nat.zero_le _) fun _ _ => Nat.zero_le _
  rw [Nat.zero_add] at hbound hnoted
  refine ⟨hbound, fun hfull m verdict hv => ?_⟩
  have hsettings := (exec_frame hquiet hrun).2
  cases hp : w'.process with
  | none =>
    rw [verdicts, hp] at hv
    cases hv
  | some p =>
    refine verdict_refused (by rw [hsettings]; exact hmax) (by rw [hsettings]; exact htime) hp ?_ hv
    rw [hsettings, ← hfull]
    exact hnoted p hp

/-! ### More keys than the table holds -/

/-- A server with one password, at which a guess is tried under ever longer names. -/
def onePassword : Crypto := ⟨id, some, fun _ password => password == "right"⟩

def openSettings : LoginSettings := ⟨3600, 600, 1, 300⟩

/-- The server with these failures noted. -/
def noted (fails : Table LoginKey (List Nat)) : Process :=
  { Process.init onePassword ⟨"admin", "r", "hash"⟩ openSettings none with fails := fails }

def openServer (fails : Table LoginKey (List Nat)) : World :=
  { now := 0, settings := openSettings, config := ⟨"admin", "r", "hash"⟩, file := none,
    process := some (noted fails), revisions := ["r"], history := [] }

def longName (n : Nat) : String := String.ofList (List.replicate n 'a')

def longKey (n : Nat) : LoginKey := ⟨"203.0.113.7", longName n⟩

def guess (n : Nat) : Move := .login (longName n) "wrong" "203.0.113.7" false "s" .ok

/-- The notes after the first `n` names. -/
def flooded : Nat → Table LoginKey (List Nat)
  | 0 => ∅
  | n + 1 => (flooded n).set (longKey n) [0]

/-- Every name once, one more than the table holds, and the first again. -/
def flood (n : Nat) : List Move := (List.range (n + 1)).map guess ++ [guess 0]

theorem longKey_injective {n m : Nat} (h : longKey n = longKey m) : n = m := by
  have hname : longName n = longName m := congrArg LoginKey.username h
  have hlist := congrArg (fun s : String => s.toList.length) hname
  simpa [longName] using hlist

theorem flooded_get_none {n m : Nat} (h : n ≤ m) : (flooded n).get (longKey m) = none := by
  induction n with
  | zero => rfl
  | succ n ih =>
    rw [flooded, Table.get_set_ne fun heq => by have := longKey_injective heq; omega, ih (by omega)]

theorem flooded_length (n : Nat) : (flooded n).entries.length = n := by
  induction n with
  | zero => rfl
  | succ n ih =>
    rw [flooded, Table.entries_set, List.length_cons,
      Table.del_of_get_none (flooded_get_none (Nat.le_refl n)), ih]

theorem flooded_values {n : Nat} : ∀ e ∈ (flooded n).entries, e.2 = [0] := by
  induction n with
  | zero => simp [flooded]
  | succ n ih =>
    intro e he
    rw [flooded, Table.entries_set, Table.del_of_get_none (flooded_get_none (Nat.le_refl n))] at he
    rcases List.mem_cons.mp he with rfl | he
    · rfl
    · exact ih e he

/-- Nothing is old yet. -/
theorem flooded_pruneFails (n : Nat) :
    (noted (flooded n)).pruneFails openSettings 0 = noted (flooded n) := by
  have hmap : (flooded n).map (fun attempts => attempts.filter fun t =>
      0 - t < max openSettings.loginWindowSecs 1 * 1000) = flooded n := by
    refine AList.ext ?_
    change ((flooded n).entries.map fun e => _) = _
    conv_rhs => rw [← List.map_id (flooded n).entries]
    refine List.map_congr_left fun e he => ?_
    obtain ⟨key, attempts⟩ := e
    obtain rfl : attempts = [0] := flooded_values _ he
    simp [openSettings]
  have hfilter : (flooded n).filter (fun _ attempts => !attempts.isEmpty) = flooded n := by
    refine AList.ext (List.filter_eq_self.mpr fun e he => ?_)
    rw [flooded_values e he]
    rfl
  rw [Process.pruneFails]
  change noted (((flooded n).map _).filter _) = _
  rw [hmap, hfilter]

theorem wrong_password (credential : Credential) :
    ¬ onePassword.verifyCredentials credential "wrong" = true := by
  cases credential with
  | argon2 encoded source =>
    exact fun h => absurd (show ("wrong" == "right") = true from h) (by decide)
  | unavailable => exact Bool.false_ne_true

theorem check_guess {n m : Nat} (hm : (flooded n).get (longKey m) = none) :
    (noted (flooded n)).checkLogin onePassword openSettings 0 (longName m) "wrong" "203.0.113.7" =
      (noted (if n + 1 > maxTrackedLoginKeys then ∅ else (flooded n).set (longKey m) [0]),
        some .invalid) := by
  have hlen : ((flooded n).set (longKey m) [0]).entries.length = n + 1 := by
    rw [Table.entries_set, List.length_cons, Table.del_of_get_none hm, flooded_length]
  have hcount : (noted (flooded n)).countFail openSettings 0 (longKey m) = noted
      (if n + 1 > maxTrackedLoginKeys then ∅ else (flooded n).set (longKey m) [0]) := by
    have hattempts : (noted (flooded n)).attempts (longKey m) = [] := by
      rw [Process.attempts]
      exact congrArg (fun o => Option.getD o []) hm
    rw [Process.countFail, hattempts]
    change noted (if ((flooded n).set (longKey m) [0]).entries.length > maxTrackedLoginKeys then ∅
      else (flooded n).set (longKey m) [0]) = _
    rw [hlen]
  have hnone : ((noted (flooded n)).fails.get ⟨"203.0.113.7", longName m⟩) = none := hm
  rw [Process.checkLogin, flooded_pruneFails, hnone, if_neg (by simp),
    if_neg fun h => wrong_password _ h.2.2.2.2]
  exact Prod.ext hcount rfl

/-- STEP: one more name is noted, or all are forgotten. -/
theorem step_guess {n m : Nat} (hm : (flooded n).get (longKey m) = none) :
    (openServer (flooded n)).step onePassword (guess m) = some (openServer
      (if n + 1 > maxTrackedLoginKeys then ∅ else (flooded n).set (longKey m) [0])) := by
  have hfresh : (openServer (flooded n)).Fresh "s" := fun e he => by cases he
  rw [guess, step, if_pos hfresh]
  exact congrArg (fun r => some r.1)
    (attemptLogin_error (w := openServer (flooded n)) false "s" .ok (check_guess hm))

theorem verdicts_guess {n m : Nat} (hm : (flooded n).get (longKey m) = none) :
    (openServer (flooded n)).verdicts onePassword (guess m) = [(longKey m, .failed)] := by
  change [(longKey m, Process.loginVerdict ((noted (flooded n)).checkLogin onePassword openSettings 0
    (longName m) "wrong" "203.0.113.7").2)] = _
  rw [check_guess hm]
  rfl

/-- RUN: the table fills. -/
theorem exec_flood {n : Nat} (hn : n ≤ maxTrackedLoginKeys) :
    exec (step onePassword) (openServer ∅) ((List.range n).map guess) =
      some (openServer (flooded n)) := by
  induction n with
  | zero => rfl
  | succ n ih =>
    rw [List.range_succ, List.map_append]
    refine exec_append (ih (by omega)) (exec_cons_eq_some.mpr ⟨_, ?_, rfl⟩)
    rw [step_guess (flooded_get_none (Nat.le_refl n)), if_neg (by omega)]
    rfl

/-- A guess is never the right password. -/
theorem quiet_guess (key : LoginKey) (w : World) (n : Nat) : w.Quiet onePassword key (guess n) := by
  refine ⟨rfl, ?_, rfl⟩
  rw [verdicts]
  cases w.process with
  | none => exact List.not_mem_nil
  | some p =>
    rw [Option.elim_some, Option.mem_toList, guess, checked]
    intro h
    have hverdict := (Prod.mk.inj (Option.some.inj h)).2
    rw [Process.checkLogin] at hverdict
    split_ifs at hverdict with hlimit hright
    · cases hverdict
    · exact wrong_password _ hright.2.2.2.2
    · cases hverdict

theorem failures_append {C : Crypto} {moves : List Move} (hrun : exec (step C) w moves = some w')
    (key : LoginKey) (more : List Move) :
    failures C key w (moves ++ more) = failures C key w moves + failures C key w' more := by
  induction moves generalizing w with
  | nil =>
    cases hrun
    simp [failures, log]
  | cons m moves ih =>
    obtain ⟨w₁, hstep, hrest⟩ := exec_cons_eq_some.mp hrun
    have hlater := ih hrest
    simp only [failures] at hlater ⊢
    rw [List.cons_append, log_cons hstep, log_cons hstep, List.count_append, List.count_append,
      hlater]
    omega

theorem quiet_flood (key : LoginKey) (w : World) (moves : List Move)
    (h : ∀ m ∈ moves, ∃ n, m = guess n) :
    Along (step onePassword) (fun w m => w.Quiet onePassword key m) w moves := by
  refine Along.of_forall_mem fun m hm w => ?_
  obtain ⟨n, rfl⟩ := h m hm
  exact quiet_guess key w n

theorem mem_flood {n : Nat} : ∀ m ∈ flood n, ∃ k, m = guess k := by
  intro m hm
  rw [flood, List.mem_append] at hm
  rcases hm with hm | hm
  · obtain ⟨k, -, rfl⟩ := List.mem_map.mp hm
    exact ⟨k, rfl⟩
  · exact ⟨0, List.mem_singleton.mp hm⟩

theorem flood_forgotten {n : Nat} (hn : n = maxTrackedLoginKeys) :
    ∃ w', Along (step onePassword) (fun w m => w.Quiet onePassword (longKey 0) m) (openServer ∅)
        (flood n) ∧
      exec (step onePassword) (openServer ∅) (flood n) = some w' ∧
      w'.now - (openServer ∅).now < window (openServer ∅).settings ∧
      (openServer ∅).settings.loginMaxFails <
        failures onePassword (longKey 0) (openServer ∅) (flood n) := by
  have hempty : (flooded 0).get (longKey 0) = none := rfl
  have hfill := exec_flood (Nat.le_of_eq hn)
  have hdrop : exec (step onePassword) (openServer ∅)
      ((List.range (n + 1)).map guess) = some (openServer ∅) := by
    rw [List.range_succ, List.map_append]
    refine exec_append hfill (exec_cons_eq_some.mpr ⟨_, ?_, rfl⟩)
    rw [step_guess (flooded_get_none (Nat.le_refl _)), if_pos (by omega)]
  have hlast : exec (step onePassword) (openServer ∅) [guess 0] = some (openServer (flooded 1)) :=
    exec_cons_eq_some.mpr ⟨_, step_guess (n := 0) hempty, rfl⟩
  refine ⟨openServer (flooded 1), ?_, exec_append hdrop hlast, by decide, ?_⟩
  · exact quiet_flood (longKey 0) (openServer ∅) (flood n) mem_flood
  · have hone : ∀ more, 1 ≤ failures onePassword (longKey 0) (openServer ∅) (guess 0 :: more) := by
      intro more
      have hstep : (openServer ∅).step onePassword (guess 0) = some _ := step_guess (n := 0) hempty
      have hverdict : (openServer ∅).verdicts onePassword (guess 0) = [(longKey 0, .failed)] :=
        verdicts_guess (n := 0) hempty
      rw [failures, log_cons hstep, List.count_append, hverdict, List.count_singleton_self]
      omega
    rw [flood, failures_append hdrop]
    have hfirst := hone ((List.range n).map (guess ∘ Nat.succ))
    have hsecond := hone []
    rw [List.range_succ_eq_map, List.map_cons, List.map_map]
    have hmax : (openServer ∅).settings.loginMaxFails = 1 := rfl
    omega

/-- The notes are forgotten within one window, and a second check under the same key fails. -/
theorem flood_unbounded :
    ∃ w', Along (step onePassword) (fun w m => w.Quiet onePassword (longKey 0) m) (openServer ∅)
        (flood maxTrackedLoginKeys) ∧
      exec (step onePassword) (openServer ∅) (flood maxTrackedLoginKeys) = some w' ∧
      w'.now - (openServer ∅).now < window (openServer ∅).settings ∧
      (openServer ∅).settings.loginMaxFails <
        failures onePassword (longKey 0) (openServer ∅) (flood maxTrackedLoginKeys) :=
  flood_forgotten rfl

/-- One guess. -/
theorem attempts_bounded_guess :
    failures onePassword (longKey 0) (openServer ∅) [guess 0] ≤ 1 ∧
      (failures onePassword (longKey 0) (openServer ∅) [guess 0] = 1 → ∀ m verdict,
        (longKey 0, verdict) ∈ (openServer (flooded 1)).verdicts onePassword m →
          verdict = .refused) := by
  have hempty : (flooded 0).get (longKey 0) = none := rfl
  exact attempts_bounded onePassword (w := openServer ∅) (by decide)
    ⟨quiet_guess _ _ 0, fun _ _ => trivial⟩
    ⟨fun p hp => by cases hp; decide, fun _ _ => trivial⟩
    (exec_cons_eq_some.mpr ⟨_, step_guess (n := 0) hempty, rfl⟩) (by decide)

end World

end Gamer.Auth
