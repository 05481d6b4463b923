import Gamer.Lib.Token
import Gamer.Extensions.Instances

/-! What becomes of the calls on running guests. A command goes to the thread its handle was made
    for, stands once in that thread's channel, and is executed once:

        call ──send──▶ commands ──receive──▶ began ──▶ finished ──▶ reply
                          │                    │
                          └──── thread ends ───┴──▶ lost                                         -/

namespace Gamer.Extensions.Instances
open Gamer.Lib Gamer.Lib.Machine

variable {Reply : Type}

/-- The handle and the thread a stop is about once it has looked the handle up. -/
def StopFuture.target : StopFuture → Option (Nat × Nat)
  | .signalling h t | .acknowledging h t | .joining h t => some (h, t)
  | _ => none

def CallFuture.target : CallFuture Reply → Option (Nat × Nat)
  | .sending h t | .waiting h t | .replied h t _ | .lost h t | .abandoned h t => some (h, t)
  | _ => none

/-- The thread the command has been sent to. -/
def CallFuture.sentTo : CallFuture Reply → Option Nat
  | .waiting _ t | .replied _ t _ | .lost _ t | .abandoned _ t => some t
  | _ => none

def RuntimeCommand.isCall (c : Nat) : RuntimeCommand → Bool
  | .call other _ => other == c
  | .stop _ => false

namespace Runtime

/-! ### Handles -/

/-- INVARIANT: a handle means one thread, wherever it stands, and a handle whose stop returned `Ok`
    means one that has ended. -/
structure Handles (s : Runtime Reply) : Prop where
  entry : ∀ {h t : Nat}, s.instances.get h = some t → s.registered[h]? = some t
  stop : ∀ {k h t : Nat} {f : StopFuture}, s.stops[k]? = some f → f.target = some (h, t) → s.registered[h]? = some t
  call : ∀ {c h t : Nat} {f : CallFuture Reply}, s.calls[c]? = some f → f.target = some (h, t) → s.registered[h]? = some t
  command : ∀ {t c h : Nat} {thread : InstanceThread}, s.threads[t]? = some thread →
    .call c h ∈ thread.commands → s.registered[h]? = some t
  stopped : ∀ {k h : Nat}, s.stops[k]? = some (.returned h true) →
    ∃ t, s.registered[h]? = some t ∧ s.Ended t
  logged : ∀ {h : Nat}, .stopped h ∈ s.log → ∃ t, s.registered[h]? = some t ∧ s.Ended t
  final : s.Final

/-- INVARIANT: of the commands of calls. -/
structure Commands (s : Runtime Reply) : Prop where
  sent : ∀ {t c h : Nat} {thread : InstanceThread}, s.threads[t]? = some thread →
    .call c h ∈ thread.commands ∨ thread.phase = .calling c →
    ∃ f, s.calls[c]? = some f ∧ f.sentTo = some t
  once : ∀ {t : Nat} {thread : InstanceThread} (c : Nat), s.threads[t]? = some thread →
    thread.commands.countP (RuntimeCommand.isCall c) + s.began c ≤ 1
  unsent : ∀ {c : Nat}, (∀ f, s.calls[c]? = some f → f.sentTo = none) → s.began c = 0
  running : ∀ {t c : Nat} {thread : InstanceThread}, s.threads[t]? = some thread → thread.phase = .calling c →
    s.began c = 1 ∧ s.results c = []
  answered : s.Answered
  ended : ∀ c : Nat, s.began c = 0 → s.results c = []
  single : ∀ c : Nat, s.began c ≤ 1

variable {s s' : Runtime Reply}

/-- One place after a change at one place. -/
theorem setThread_getElem? {t t' : Nat} {thread thread' th : InstanceThread}
    (hthread : s.threads[t]? = some thread)
    (h : (s.setThread t thread').threads[t']? = some th) :
    t' = t ∧ th = thread' ∨ t' ≠ t ∧ s.threads[t']? = some th :=
  (Token.getElem?_set_eq_some hthread).mp h

theorem setStop_getElem? {k k' : Nat} {f f' g : StopFuture} (hf : s.stops[k]? = some f)
    (h : (s.setStop k f').stops[k']? = some g) :
    k' = k ∧ g = f' ∨ k' ≠ k ∧ s.stops[k']? = some g :=
  (Token.getElem?_set_eq_some hf).mp h

theorem setCall_getElem? {c c' : Nat} {f f' g : CallFuture Reply} (hf : s.calls[c]? = some f)
    (h : (s.setCall c f').calls[c']? = some g) :
    c' = c ∧ g = f' ∨ c' ≠ c ∧ s.calls[c']? = some g :=
  (Token.getElem?_set_eq_some hf).mp h

/-- A thread that has ended stays ended. -/
theorem Ended.setThread {t t' : Nat} {thread thread' : InstanceThread} (he : s.Ended t')
    (hthread : s.threads[t]? = some thread) (h : thread.isEnded = true → thread'.isEnded = true) :
    (s.setThread t thread').Ended t' := by
  obtain ⟨th, hth, hended⟩ := he
  by_cases ht : t' = t
  · subst ht
    obtain rfl : th = thread := Option.some.inj (hth.symm.trans hthread)
    refine ⟨thread', ?_, h hended⟩
    rw [Runtime.setThread, List.getElem?_set_self (List.getElem?_eq_some_iff.mp hthread).1]
  · refine ⟨th, ?_, hended⟩
    rw [Runtime.setThread, List.getElem?_set_ne (Ne.symm ht)]
    exact hth

theorem Handles.setStart (hi : s.Handles) (i : Nat) (f : StartFuture) : (s.setStart i f).Handles :=
  ⟨hi.entry, hi.stop, hi.call, hi.command, hi.stopped, hi.logged, hi.final⟩

theorem Handles.setStop (hi : s.Handles) {k : Nat} {f : StopFuture} (f' : StopFuture) (hf : s.stops[k]? = some f)
    (htarget : ∀ h t, f'.target = some (h, t) → s.registered[h]? = some t)
    (hreturned : ∀ h, f' = .returned h true → ∃ t, s.registered[h]? = some t ∧ s.Ended t) :
    (s.setStop k f').Handles where
  entry := hi.entry
  stop := fun {k' h t g} hg hgt => by
    rcases setStop_getElem? hf hg with ⟨-, rfl⟩ | ⟨-, hg⟩
    · exact htarget h t hgt
    · exact hi.stop hg hgt
  call := hi.call
  command := hi.command
  stopped := fun {k' h} hg => by
    rcases setStop_getElem? hf hg with ⟨-, heq⟩ | ⟨-, hg⟩
    · exact hreturned h heq.symm
    · exact hi.stopped hg
  logged := hi.logged
  final := hi.final

theorem Handles.setCall (hi : s.Handles) {c : Nat} {f : CallFuture Reply} (f' : CallFuture Reply)
    (hf : s.calls[c]? = some f)
    (htarget : ∀ h t, f'.target = some (h, t) → s.registered[h]? = some t) :
    (s.setCall c f').Handles where
  entry := hi.entry
  stop := hi.stop
  call := fun {c' h t g} hg hgt => by
    rcases setCall_getElem? hf hg with ⟨-, rfl⟩ | ⟨-, hg⟩
    · exact htarget h t hgt
    · exact hi.call hg hgt
  command := hi.command
  stopped := hi.stopped
  logged := hi.logged
  final := hi.final

theorem Handles.setThread (hi : s.Handles) {t : Nat} {thread : InstanceThread} (thread' : InstanceThread)
    (hthread : s.threads[t]? = some thread) (hended : thread.isEnded = true → thread'.isEnded = true)
    (hcommand : ∀ c h, .call c h ∈ thread'.commands → s.registered[h]? = some t) :
    (s.setThread t thread').Handles where
  entry := hi.entry
  stop := hi.stop
  call := hi.call
  command := fun {t' c h th} hth hmem => by
    rcases setThread_getElem? hthread hth with ⟨rfl, rfl⟩ | ⟨-, hth⟩
    · exact hcommand c h hmem
    · exact hi.command hth hmem
  stopped := fun hg => by
    obtain ⟨t', ht', he⟩ := hi.stopped hg
    exact ⟨t', ht', he.setThread hthread hended⟩
  logged := fun hg => by
    obtain ⟨t', ht', he⟩ := hi.logged hg
    exact ⟨t', ht', he.setThread hthread hended⟩
  final := hi.final

theorem Handles.push (hi : s.Handles) {e : Event Reply}
    (hstopped : ∀ h, e = .stopped h → ∃ t, s.registered[h]? = some t ∧ s.Ended t)
    (hbegan : ∀ c h, e = .began c h → .stopped h ∉ s.log) : (s.push e).Handles where
  entry := hi.entry
  stop := hi.stop
  call := hi.call
  command := hi.command
  stopped := hi.stopped
  logged := fun {h} hg => by
    rcases List.mem_append.mp hg with hg | hg
    · exact hi.logged hg
    · exact hstopped h (List.mem_singleton.mp hg).symm
  final := by
    refine List.pairwise_append.mpr ⟨hi.final, List.pairwise_singleton _ _, ?_⟩
    intro e₁ he₁ e₂ he₂ c h heq hbeg
    obtain rfl := List.mem_singleton.mp he₂
    subst heq
    exact hbegan c h hbeg he₁

/-- A handle is made. -/
theorem Handles.register (hi : s.Handles) (t : Nat) :
    Handles { s with instances := s.instances.set s.registered.length t,
                     registered := s.registered ++ [t] } := by
  have hold : ∀ {h t' : Nat}, s.registered[h]? = some t' → (s.registered ++ [t])[h]? = some t' :=
    fun hget => by
      rw [List.getElem?_append_left (List.getElem?_eq_some_iff.mp hget).1]
      exact hget
  refine ⟨fun {h t'} hget => ?_, fun hf ht => hold (hi.stop hf ht), fun hf ht => hold (hi.call hf ht),
    fun hth hmem => hold (hi.command hth hmem), fun hk => ?_, fun hk => ?_, hi.final⟩
  · rw [Table.get_set] at hget
    split_ifs at hget with hh
    · cases hget
      rw [hh]
      exact List.getElem?_concat_length
    · exact hold (hi.entry hget)
  · obtain ⟨t', ht', he⟩ := hi.stopped hk
    exact ⟨t', hold ht', he⟩
  · obtain ⟨t', ht', he⟩ := hi.logged hk
    exact ⟨t', hold ht', he⟩

/-- An entry is taken out, and its thread told. -/
theorem Handles.remove (hi : s.Handles) (h t : Nat) :
    Handles { s with
      instances := s.instances.del h
      threads := s.threads.modify t fun thread => { thread with cancelled := true } } := by
  have hended : ∀ {t'}, s.Ended t' → Ended { s with
      instances := s.instances.del h
      threads := s.threads.modify t fun thread => { thread with cancelled := true } } t' := by
    rintro t' ⟨th, hth, he⟩
    by_cases ht : t = t'
    · refine ⟨{ th with cancelled := true }, ?_, he⟩
      simp [ht, hth]
    · refine ⟨th, ?_, he⟩
      simp [ht, hth]
  refine ⟨fun {h' t'} hget => ?_, hi.stop, hi.call, fun {t' c h' th} hth hmem => ?_, fun hk => ?_,
    fun hk => ?_, hi.final⟩
  · rw [Table.get_del] at hget
    split_ifs at hget
    exact hi.entry hget
  · rw [List.getElem?_modify] at hth
    obtain ⟨th', hth', rfl⟩ := Option.map_eq_some_iff.mp hth
    have hmem' : .call c h' ∈ th'.commands := by
      split_ifs at hmem
      · exact hmem
      · exact hmem
    exact hi.command hth' hmem'
  · obtain ⟨t', ht', he⟩ := hi.stopped hk
    exact ⟨t', ht', hended he⟩
  · obtain ⟨t', ht', he⟩ := hi.logged hk
    exact ⟨t', ht', hended he⟩

/-- A thread is spawned. -/
theorem Handles.spawn (hi : s.Handles) :
    Handles { s with threads := s.threads ++ [⟨.instantiating, none, false, []⟩] } := by
  have hended : ∀ {t}, s.Ended t →
      Ended { s with threads := s.threads ++ [⟨.instantiating, none, false, []⟩] } t := by
    rintro t ⟨th, hth, he⟩
    refine ⟨th, ?_, he⟩
    rw [List.getElem?_append_left (List.getElem?_eq_some_iff.mp hth).1]
    exact hth
  refine ⟨hi.entry, hi.stop, hi.call, fun {t c h th} hth hmem => ?_, fun hk => ?_, fun hk => ?_,
    hi.final⟩
  · rcases Token.getElem?_push_eq_some.mp hth with hth | ⟨-, rfl⟩
    · exact hi.command hth hmem
    · cases hmem
  · obtain ⟨t, ht, he⟩ := hi.stopped hk
    exact ⟨t, ht, hended he⟩
  · obtain ⟨t, ht, he⟩ := hi.logged hk
    exact ⟨t, ht, hended he⟩

/-- A future begins. -/
theorem Handles.beginStop (hi : s.Handles) (h : Nat) :
    Handles { s with stops := s.stops ++ [.locking h] } := by
  refine ⟨hi.entry, fun {k h' t f} hf ht => ?_, hi.call, hi.command, fun {k h'} hf => ?_, hi.logged,
    hi.final⟩
  · rcases Token.getElem?_push_eq_some.mp hf with hf | ⟨-, rfl⟩
    · exact hi.stop hf ht
    · cases ht
  · rcases Token.getElem?_push_eq_some.mp hf with hf | ⟨-, heq⟩
    · exact hi.stopped hf
    · cases heq

theorem Handles.beginCall (hi : s.Handles) (h : Nat) :
    Handles { s with calls := s.calls ++ [.locking h] } := by
  refine ⟨hi.entry, hi.stop, fun {c h' t f} hf ht => ?_, hi.command, hi.stopped, hi.logged, hi.final⟩
  rcases Token.getElem?_push_eq_some.mp hf with hf | ⟨-, rfl⟩
  · exact hi.call hf ht
  · cases ht

theorem target_answer (reply : Reply) (f : CallFuture Reply) :
    (f.answer reply).target = f.target := by
  cases f <;> rfl

theorem sentTo_answer (reply : Reply) (f : CallFuture Reply) :
    (f.answer reply).sentTo = f.sentTo := by
  cases f <;> rfl

theorem Handles.answer (hi : s.Handles) (c : Nat) (reply : Reply) :
    Handles { s with calls := s.calls.modify c (CallFuture.answer reply) } := by
  refine ⟨hi.entry, hi.stop, fun {c' h t f} hf ht => ?_, hi.command, hi.stopped, hi.logged, hi.final⟩
  rw [List.getElem?_modify] at hf
  obtain ⟨g, hg, rfl⟩ := Option.map_eq_some_iff.mp hf
  refine hi.call hg ?_
  split_ifs at ht
  · rwa [target_answer] at ht
  · exact ht

/-- STEP: a start. -/
theorem Handles.stepStart (hi : s.Handles) {i : Nat} {m : Move Reply}
    (h : s.stepStart i m = some s') : s'.Handles := by
  cases m with
  | fail _ =>
    rw [Runtime.stepStart] at h
    split at h
    · cases h
      exact hi.setStart i _
    · cases h
  | spawn _ =>
    rw [Runtime.stepStart] at h
    split at h
    · cases h
      exact hi.spawn.setStart i _
    · cases h
  | hear _ =>
    rw [Runtime.stepStart] at h
    split at h
    · split_ifs at h
      cases h
      exact hi.setStart i _
    · cases h
  | register _ =>
    rw [Runtime.stepStart] at h
    split at h
    · cases h
      exact (hi.register _).setStart i _
    · cases h
  | reject _ =>
    rw [Runtime.stepStart] at h
    split at h
    · split_ifs at h
      cases h
      exact hi.setStart i _
    · cases h
  | dropStart _ =>
    rw [Runtime.stepStart] at h
    split_ifs at h
    cases h
    exact hi.setStart i _
  | _ => cases h

/-- STEP: a stop. -/
theorem Handles.stepStop (hi : s.Handles) {k : Nat} {m : Move Reply}
    (h : s.stepStop k m = some s') : s'.Handles := by
  -- a stop that goes on with the handle and the thread it has
  have hkeep : ∀ {f h₀ t} f', s.stops[k]? = some f → f.target = some (h₀, t) →
      f'.target = some (h₀, t) → (s.setStop k f').Handles := by
    intro f h₀ t f' hf ht ht'
    refine hi.setStop f' hf (fun h t' heq => ?_) fun h heq => ?_
    · rw [ht'] at heq
      cases heq
      exact hi.stop hf ht
    · rw [heq] at ht'
      cases ht'
  cases m with
  | remove _ =>
    rw [Runtime.stepStop] at h
    split at h
    · rename_i h₀ hf
      split at h
      · cases h
        exact hi.setStop _ hf (fun h t heq => by cases heq) fun h heq => by cases heq
      · rename_i t hget
        cases h
        refine (hi.remove h₀ t).setStop _ hf (fun h t' heq => ?_) fun h heq => by cases heq
        cases heq
        exact hi.entry hget
    · cases h
  | signal _ =>
    rw [Runtime.stepStop] at h
    split at h
    · rename_i h₀ t hf
      split at h
      · cases h
      · rename_i thread hthread
        split_ifs at h with hended hroom
        · cases h
          exact hkeep _ hf rfl rfl
        · cases h
          have hsend := hi.setThread { thread with commands := thread.commands ++ [.stop k] } hthread
            (fun hend => hend) fun c h hmem => by
              rcases List.mem_append.mp hmem with hmem | hmem
              · exact hi.command hthread hmem
              · cases List.mem_singleton.mp hmem
          refine hsend.setStop _ hf (fun h t' heq => ?_) fun h heq => by cases heq
          cases heq
          exact hi.stop hf rfl
    · cases h
  | acknowledge _ =>
    rw [Runtime.stepStop] at h
    split at h
    · rename_i h₀ t hf
      split_ifs at h
      cases h
      exact hkeep _ hf rfl rfl
    · cases h
  | join _ =>
    rw [Runtime.stepStop] at h
    split at h
    · rename_i h₀ t hf
      split at h
      · rename_i hended
        cases h
        have hthread : ∃ t', s.registered[h₀]? = some t' ∧ s.Ended t' := by
          obtain ⟨thread, hthread, hphase⟩ := Option.map_eq_some_iff.mp hended
          exact ⟨t, hi.stop hf rfl, thread, hthread, by rw [InstanceThread.isEnded, hphase]⟩
        refine (hi.setStop _ hf (fun h t' heq => by cases heq) fun h heq => ?_).push (fun h heq => ?_)
          fun c h heq => by cases heq
        · cases heq
          exact hthread
        · cases heq
          exact hthread
      · cases h
        exact hi.setStop _ hf (fun h t heq => by cases heq) fun h heq => by cases heq
      · cases h
    · cases h
  | dropStop _ =>
    rw [Runtime.stepStop] at h
    split_ifs at h with hprogress
    cases h
    cases hf : s.stops[k]? with
    | none => rw [hf] at hprogress; cases hprogress
    | some f => exact hi.setStop _ hf (fun h t heq => by cases heq) fun h heq => by cases heq
  | _ => cases h

/-- STEP: a call. -/
theorem Handles.stepCall (hi : s.Handles) {c : Nat} {m : Move Reply}
    (h : s.stepCall c m = some s') : s'.Handles := by
  have hkeep : ∀ {f h₀ t} f', s.calls[c]? = some f → f.target = some (h₀, t) →
      f'.target = some (h₀, t) → (s.setCall c f').Handles := by
    intro f h₀ t f' hf ht ht'
    refine hi.setCall f' hf fun h t' heq => ?_
    rw [ht'] at heq
    cases heq
    exact hi.call hf ht
  cases m with
  | lookup _ =>
    rw [Runtime.stepCall] at h
    split at h
    · rename_i h₀ hf
      split at h
      · cases h
        exact hi.setCall _ hf fun h t heq => by cases heq
      · rename_i t hget
        cases h
        refine hi.setCall _ hf fun h t' heq => ?_
        cases heq
        exact hi.entry hget
    · cases h
  | send _ =>
    rw [Runtime.stepCall] at h
    split at h
    · rename_i h₀ t hf
      split at h
      · cases h
      · rename_i thread hthread
        split_ifs at h with hended hroom
        · cases h
          exact hi.setCall _ hf fun h t heq => by cases heq
        · cases h
          have hsend := hi.setThread { thread with commands := thread.commands ++ [.call c h₀] }
            hthread (fun hend => hend) fun c' h hmem => by
              rcases List.mem_append.mp hmem with hmem | hmem
              · exact hi.command hthread hmem
              · cases List.mem_singleton.mp hmem
                exact hi.call hf rfl
          refine hsend.setCall _ hf fun h t' heq => ?_
          cases heq
          exact hi.call hf rfl
    · cases h
  | lose _ =>
    rw [Runtime.stepCall] at h
    split at h
    · rename_i h₀ t hf
      split_ifs at h
      cases h
      exact hkeep _ hf rfl rfl
    · cases h
  | dropCall _ =>
    rw [Runtime.stepCall] at h
    split at h
    · rename_i hf
      cases h
      exact hi.setCall _ hf fun h t heq => by cases heq
    · rename_i hf
      cases h
      exact hi.setCall _ hf fun h t heq => by cases heq
    · rename_i hf
      cases h
      exact hkeep _ hf rfl rfl
    · rename_i hf
      cases h
      exact hkeep _ hf rfl rfl
    · cases h
  | _ => cases h

/-- STEP: a thread. A command that is executed comes from a handle whose thread still runs. -/
theorem Handles.stepThread (hi : s.Handles) {t : Nat} {thread : InstanceThread} {m : Move Reply}
    (hthread : s.threads[t]? = some thread) (h : s.stepThread t thread m = some s') :
    s'.Handles := by
  have hfinish : ∀ ok, (s.setThread t (thread.finish ok)).Handles := fun ok =>
    hi.setThread _ hthread (fun _ => rfl) fun c h hmem => by cases hmem
  have hrun : ∀ thread' : InstanceThread, thread.isEnded = false →
      (∀ c h, .call c h ∈ thread'.commands → .call c h ∈ thread.commands) →
      (s.setThread t thread').Handles := fun thread' hlive hsub =>
    hi.setThread thread' hthread (fun hend => by rw [hlive] at hend; cases hend)
      fun c h hmem => hi.command hthread (hsub c h hmem)
  cases m with
  | instantiate _ ok =>
    rw [Runtime.stepThread] at h
    split at h
    · rename_i hphase
      have hlive : thread.isEnded = false := by rw [InstanceThread.isEnded, hphase]
      split_ifs at h
      · cases h
        exact hrun _ hlive fun c h hmem => hmem
      · cases h
        exact hrun _ hlive fun c h hmem => by cases hmem
    · cases h
  | enter _ trap =>
    rw [Runtime.stepThread] at h
    split at h
    · rename_i hphase
      split_ifs at h
      · cases h
        exact hfinish _
      · cases h
        exact hrun _ (by rw [InstanceThread.isEnded, hphase]) fun c h hmem => hmem
    · cases h
  | receive _ =>
    rw [Runtime.stepThread] at h
    split at h
    · split_ifs at h
      cases h
      exact hfinish _
    · rename_i c h₀ rest hphase hcommands
      cases h
      have hlive : thread.isEnded = false := by rw [InstanceThread.isEnded, hphase]
      have hregistered := hi.command (c := c) (h := h₀) hthread (by rw [hcommands]; simp)
      refine (hrun { thread with phase := .calling c, commands := rest } hlive fun c h hmem => ?_).push
        (fun h heq => by cases heq) fun c' h heq hstopped => ?_
      · rw [hcommands]
        exact List.mem_cons_of_mem _ hmem
      · cases heq
        obtain ⟨t', ht', th, hth, hended⟩ := hi.logged hstopped
        obtain rfl : t = t' := Option.some.inj (hregistered.symm.trans ht')
        obtain rfl : thread = th := Option.some.inj (hthread.symm.trans hth)
        rw [hlive] at hended
        cases hended
    · cases h
      exact hfinish _
    · cases h
  | reply _ reply =>
    rw [Runtime.stepThread] at h
    split at h
    · rename_i c hphase
      cases h
      have hserve := hrun { thread with phase := .serving }
        (by rw [InstanceThread.isEnded, hphase]) fun c h hmem => hmem
      exact (hserve.answer c reply).push (fun h heq => by cases heq) fun c h heq => by cases heq
    · cases h
  | panic _ =>
    rw [Runtime.stepThread] at h
    split_ifs at h
    cases h
    exact hfinish _
  | _ => cases h

/-- STEP: handles keep their meaning, whatever is dropped. -/
theorem Handles.step (hi : s.Handles) {m : Move Reply} (h : s.step m = some s') : s'.Handles := by
  have hthread : ∀ t, (s.threads[t]?.bind fun thread => s.stepThread t thread m) = some s' →
      s'.Handles := by
    intro t ht
    obtain ⟨thread, hthread, hstep⟩ := Option.bind_eq_some_iff.mp ht
    exact hi.stepThread hthread hstep
  cases m with
  | start =>
    cases h
    exact ⟨hi.entry, hi.stop, hi.call, hi.command, hi.stopped, hi.logged, hi.final⟩
  | stop h₀ =>
    cases h
    exact hi.beginStop h₀
  | call h₀ =>
    cases h
    exact hi.beginCall h₀
  | fail i => exact hi.stepStart (i := i) (m := .fail i) h
  | spawn i => exact hi.stepStart (i := i) (m := .spawn i) h
  | hear i => exact hi.stepStart (i := i) (m := .hear i) h
  | register i => exact hi.stepStart (i := i) (m := .register i) h
  | reject i => exact hi.stepStart (i := i) (m := .reject i) h
  | dropStart i => exact hi.stepStart (i := i) (m := .dropStart i) h
  | remove k => exact hi.stepStop (k := k) (m := .remove k) h
  | signal k => exact hi.stepStop (k := k) (m := .signal k) h
  | acknowledge k => exact hi.stepStop (k := k) (m := .acknowledge k) h
  | join k => exact hi.stepStop (k := k) (m := .join k) h
  | dropStop k => exact hi.stepStop (k := k) (m := .dropStop k) h
  | lookup c => exact hi.stepCall (c := c) (m := .lookup c) h
  | send c => exact hi.stepCall (c := c) (m := .send c) h
  | lose c => exact hi.stepCall (c := c) (m := .lose c) h
  | dropCall c => exact hi.stepCall (c := c) (m := .dropCall c) h
  | instantiate t ok => exact hthread t h
  | enter t trap => exact hthread t h
  | receive t => exact hthread t h
  | reply t reply => exact hthread t h
  | panic t => exact hthread t h

theorem Handles.start : Handles ({} : Runtime Reply) := by
  refine ⟨fun {h t} hget => ?_, fun {k h t f} hf => ?_, fun {c h t f} hf => ?_,
    fun {t c h th} hth => ?_, fun {k h} hf => ?_, fun {h} hmem => ?_, List.Pairwise.nil⟩
  · cases hget
  · cases hf
  · cases hf
  · cases hth
  · cases hf
  · cases hmem

/-! ### Commands -/

@[simp] theorem began_push_finished (c c' : Nat) (reply : Reply) :
    (s.push (.finished c' reply)).began c = s.began c := by
  simp [began, push]

@[simp] theorem began_push_stopped (c h : Nat) : (s.push (.stopped h)).began c = s.began c := by
  simp [began, push]

theorem began_push_began (c c' h : Nat) :
    (s.push (.began c' h)).began c = s.began c + if c' = c then 1 else 0 := by
  by_cases hc : c' = c
  · simp [began, push, hc]
  · simp [began, push, hc]

@[simp] theorem results_push_began (c c' h : Nat) :
    (s.push (.began c' h)).results c = s.results c := by
  simp [results, push]

@[simp] theorem results_push_stopped (c h : Nat) :
    (s.push (.stopped h)).results c = s.results c := by
  simp [results, push]

theorem results_push_finished (c c' : Nat) (reply : Reply) :
    (s.push (.finished c' reply)).results c =
      s.results c ++ if c' = c then [reply] else [] := by
  by_cases hc : c' = c
  · simp [results, push, hc]
  · simp [results, push, hc]

/-- A call whose command is not sent is in no channel and has not begun. -/
theorem Commands.absent (hi : s.Commands) {c t : Nat} {thread : InstanceThread}
    (hnone : ∀ f, s.calls[c]? = some f → f.sentTo = none) (hthread : s.threads[t]? = some thread) :
    thread.commands.countP (RuntimeCommand.isCall c) = 0 ∧ s.began c = 0 := by
  refine ⟨List.countP_eq_zero.mpr fun command hmem hcall => ?_, hi.unsent hnone⟩
  cases command with
  | stop k => cases hcall
  | call c' h =>
    obtain rfl : c' = c := by simpa [RuntimeCommand.isCall] using hcall
    obtain ⟨f, hf, hsent⟩ := hi.sent hthread (.inl hmem)
    rw [hnone f hf] at hsent
    cases hsent

/-- Only the log, the calls and the threads matter. -/
theorem Commands.congr (hi : s.Commands) (hthreads : s'.threads = s.threads)
    (hcalls : s'.calls = s.calls) (hlog : s'.log = s.log) : s'.Commands := by
  have hbegan : ∀ c, s'.began c = s.began c := fun c => by rw [began, began, hlog]
  have hresults : ∀ c, s'.results c = s.results c := fun c => by rw [results, results, hlog]
  refine ⟨fun hth hc => ?_, fun c hth => ?_, fun hnone => ?_, fun hth hphase => ?_,
    fun c h t reply hc => ?_, fun c hc => ?_, fun c => ?_⟩
  · rw [hthreads] at hth
    rw [hcalls]
    exact hi.sent hth hc
  · rw [hthreads] at hth
    rw [hbegan]
    exact hi.once c hth
  · rw [hcalls] at hnone
    rw [hbegan]
    exact hi.unsent hnone
  · rw [hthreads] at hth
    rw [hbegan, hresults]
    exact hi.running hth hphase
  · rw [hcalls] at hc
    rw [hbegan, hresults]
    exact hi.answered c h t reply hc
  · rw [hbegan] at hc
    rw [hresults]
    exact hi.ended c hc
  · rw [hbegan]
    exact hi.single c

/-- A thread that begins no call and gets no command of one. -/
theorem Commands.setThread (hi : s.Commands) {t : Nat} {thread : InstanceThread}
    (thread' : InstanceThread) (hthread : s.threads[t]? = some thread)
    (hphase : ∀ c, thread'.phase = .calling c → thread.phase = .calling c)
    (hmem : ∀ c h, .call c h ∈ thread'.commands → .call c h ∈ thread.commands)
    (hcount : ∀ c, thread'.commands.countP (RuntimeCommand.isCall c) ≤
      thread.commands.countP (RuntimeCommand.isCall c)) : (s.setThread t thread').Commands where
  sent := fun {t' c h th} hth hc => by
    rcases setThread_getElem? hthread hth with ⟨rfl, rfl⟩ | ⟨-, hth⟩
    · exact hi.sent hthread (hc.imp (hmem c h) (hphase c))
    · exact hi.sent hth hc
  once := fun {t' th} c hth => by
    rcases setThread_getElem? hthread hth with ⟨rfl, rfl⟩ | ⟨-, hth⟩
    · exact Nat.le_trans (Nat.add_le_add_right (hcount c) _) (hi.once c hthread)
    · exact hi.once c hth
  unsent := hi.unsent
  running := fun {t' c th} hth hc => by
    rcases setThread_getElem? hthread hth with ⟨rfl, rfl⟩ | ⟨-, hth⟩
    · exact hi.running hthread (hphase c hc)
    · exact hi.running hth hc
  answered := hi.answered
  ended := hi.ended
  single := hi.single

/-- A future that goes on with its command where it is. -/
theorem Commands.setCall (hi : s.Commands) {c : Nat} {f : CallFuture Reply} (f' : CallFuture Reply)
    (hf : s.calls[c]? = some f) (hsame : f'.sentTo = f.sentTo)
    (hreply : ∀ h t reply, f' ≠ .replied h t reply) : (s.setCall c f').Commands where
  sent := fun {t c' h th} hth hc => by
    obtain ⟨g, hg, hsent⟩ := hi.sent hth hc
    by_cases hcc : c' = c
    · subst hcc
      obtain rfl := Option.some.inj (hf.symm.trans hg)
      exact ⟨f', (Token.getElem?_set_eq_some hf).mpr (.inl ⟨rfl, rfl⟩), hsame.trans hsent⟩
    · exact ⟨g, (Token.getElem?_set_eq_some hf).mpr (.inr ⟨hcc, hg⟩), hsent⟩
  once := hi.once
  unsent := fun {c'} hnone => by
    refine hi.unsent fun g hg => ?_
    by_cases hcc : c' = c
    · subst hcc
      obtain rfl := Option.some.inj (hf.symm.trans hg)
      rw [← hsame]
      exact hnone f' ((Token.getElem?_set_eq_some hf).mpr (.inl ⟨rfl, rfl⟩))
    · exact hnone g ((Token.getElem?_set_eq_some hf).mpr (.inr ⟨hcc, hg⟩))
  running := hi.running
  answered := fun c' h t reply hg => by
    rcases setCall_getElem? hf hg with ⟨-, heq⟩ | ⟨-, hg⟩
    · exact absurd heq.symm (hreply h t reply)
    · exact hi.answered c' h t reply hg
  ended := hi.ended
  single := hi.single

/-- The command of a call is sent. -/
theorem Commands.send (hi : s.Commands) {c h t : Nat} {thread : InstanceThread}
    (hf : s.calls[c]? = some (.sending h t)) (hthread : s.threads[t]? = some thread) :
    ((s.setThread t { thread with commands := thread.commands ++ [.call c h] }).setCall c
      (.waiting h t)).Commands := by
  have hnone : ∀ f, s.calls[c]? = some f → f.sentTo = none := by
    intro f hf'
    obtain rfl := Option.some.inj (hf.symm.trans hf')
    rfl
  have hset : ∀ {c' : Nat} {g : CallFuture Reply}, c' ≠ c → s.calls[c']? = some g →
      (s.calls.set c (.waiting h t))[c']? = some g := fun hne hg =>
    (Token.getElem?_set_eq_some hf).mpr (.inr ⟨hne, hg⟩)
  have hself : (s.calls.set c (.waiting h t))[c]? = some (.waiting h t) :=
    (Token.getElem?_set_eq_some hf).mpr (.inl ⟨rfl, rfl⟩)
  refine ⟨fun {t' c' h' th} hth hc => ?_, fun {t' th} c' hth => ?_, fun {c'} hsilent => ?_,
    fun {t' c' th} hth hc => ?_, fun c' h' t' reply hg => ?_, hi.ended, hi.single⟩
  · by_cases hcc : c' = c
    · subst hcc
      refine ⟨_, hself, ?_⟩
      rcases setThread_getElem? hthread hth with ⟨rfl, -⟩ | ⟨-, hth⟩
      · rfl
      · obtain ⟨g, hg, hsent⟩ := hi.sent hth hc
        rw [hnone g hg] at hsent
        cases hsent
    · have hold : ∃ g, s.calls[c']? = some g ∧ g.sentTo = some t' := by
        rcases setThread_getElem? hthread hth with ⟨rfl, rfl⟩ | ⟨-, hth⟩
        · refine hi.sent (h := h') hthread (hc.imp_left fun hmem => ?_)
          rcases List.mem_append.mp hmem with hmem | hmem
          · exact hmem
          · cases List.mem_singleton.mp hmem
            exact absurd rfl hcc
        · exact hi.sent hth hc
      obtain ⟨g, hg, hsent⟩ := hold
      exact ⟨g, hset hcc hg, hsent⟩
  · change _ + s.began c' ≤ 1
    rcases setThread_getElem? hthread hth with ⟨rfl, rfl⟩ | ⟨-, hth⟩
    · have honce := hi.once c' hthread
      rw [List.countP_append]
      by_cases hcc : c = c'
      · subst hcc
        obtain ⟨hzero, hbegan⟩ := hi.absent hnone hthread
        rw [hzero, hbegan]
        simp [RuntimeCommand.isCall]
      · simpa [RuntimeCommand.isCall, hcc] using honce
    · exact hi.once c' hth
  · refine hi.unsent fun g hg => ?_
    by_cases hcc : c' = c
    · subst hcc
      exact hnone g hg
    · exact hsilent g (hset hcc hg)
  · rcases setThread_getElem? hthread hth with ⟨rfl, rfl⟩ | ⟨-, hth⟩
    · exact hi.running hthread hc
    · exact hi.running hth hc
  · rcases (Token.getElem?_set_eq_some hf).mp hg with ⟨-, heq⟩ | ⟨-, hg⟩
    · cases heq
    · exact hi.answered c' h' t' reply hg

/-- A command stands with one thread only. -/
theorem Commands.unique (hi : s.Commands) (h h' : Nat) {c t t' : Nat} {thread thread' : InstanceThread}
    (hthread : s.threads[t]? = some thread)
    (hc : .call c h ∈ thread.commands ∨ thread.phase = .calling c)
    (hthread' : s.threads[t']? = some thread')
    (hc' : .call c h' ∈ thread'.commands ∨ thread'.phase = .calling c) : t' = t := by
  obtain ⟨f, hf, hsent⟩ := hi.sent hthread hc
  obtain ⟨f', hf', hsent'⟩ := hi.sent hthread' hc'
  obtain rfl := Option.some.inj (hf.symm.trans hf')
  exact Option.some.inj (hsent'.symm.trans hsent)

theorem countP_eq_zero {c : Nat} {commands : List RuntimeCommand}
    (h : ∀ h, .call c h ∉ commands) : commands.countP (RuntimeCommand.isCall c) = 0 := by
  refine List.countP_eq_zero.mpr fun command hmem hcall => ?_
  cases command with
  | stop k => cases hcall
  | call c' h' =>
    obtain rfl : c' = c := by simpa [RuntimeCommand.isCall] using hcall
    exact h h' hmem

/-- The guest begins to execute a call. -/
theorem Commands.begin (hi : s.Commands) {c h t : Nat} {thread : InstanceThread}
    {rest : List RuntimeCommand} (hthread : s.threads[t]? = some thread)
    (hcommands : thread.commands = .call c h :: rest) :
    ((s.setThread t { thread with phase := .calling c, commands := rest }).push
      (.began c h)).Commands := by
  have hhere : .call c h ∈ thread.commands ∨ thread.phase = .calling c :=
    .inl (by rw [hcommands]; exact List.mem_cons_self)
  have honce := hi.once c hthread
  rw [hcommands, List.countP_cons] at honce
  have hzero : s.began c = 0 := by
    simp only [RuntimeCommand.isCall, beq_self_eq_true, ↓reduceIte] at honce
    omega
  have hother : ∀ {t' th}, t' ≠ t → s.threads[t']? = some th →
      (∀ h', .call c h' ∉ th.commands) ∧ th.phase ≠ .calling c := fun hne hth =>
    ⟨fun h' hmem => hne (hi.unique h h' hthread hhere hth (.inl hmem)), fun hphase =>
      hne (hi.unique h h hthread hhere hth (.inr hphase))⟩
  have hbegan : ∀ c', ((s.setThread t { thread with phase := .calling c, commands := rest }).push
      (.began c h)).began c' = s.began c' + if c = c' then 1 else 0 := fun c' =>
    began_push_began c' c h
  have hresults : ∀ c', ((s.setThread t { thread with phase := .calling c, commands := rest }).push
      (.began c h)).results c' = s.results c' := fun c' => results_push_began c' c h
  refine ⟨fun {t' c' h' th} hth hc => ?_, fun {t' th} c' hth => ?_, fun {c'} hnone => ?_,
    fun {t' c' th} hth hc => ?_, fun c' h' t' reply hg => ?_, fun c' hc => ?_, fun c' => ?_⟩
  · rcases setThread_getElem? hthread hth with ⟨rfl, rfl⟩ | ⟨-, hth⟩
    · rcases hc with hc | hc
      · exact hi.sent hthread (.inl (by rw [hcommands]; exact List.mem_cons_of_mem _ hc))
      · cases hc
        exact hi.sent hthread hhere
    · exact hi.sent hth hc
  · rw [hbegan]
    rcases setThread_getElem? hthread hth with ⟨rfl, rfl⟩ | ⟨hne, hth⟩
    · have honce' := hi.once c' hthread
      rw [hcommands, List.countP_cons] at honce'
      simp only [RuntimeCommand.isCall, beq_iff_eq] at honce'
      dsimp only
      omega
    · by_cases hcc : c = c'
      · subst hcc
        rw [countP_eq_zero (hother hne hth).1, hzero, if_pos rfl]
      · rw [if_neg hcc]
        exact hi.once c' hth
  · have hne : c ≠ c' := by
      rintro rfl
      obtain ⟨f, hf, hsent⟩ := hi.sent hthread hhere
      rw [hnone f hf] at hsent
      cases hsent
    rw [hbegan, if_neg hne]
    exact hi.unsent hnone
  · rw [hbegan, hresults]
    rcases setThread_getElem? hthread hth with ⟨rfl, rfl⟩ | ⟨hne, hth⟩
    · cases hc
      rw [hzero, if_pos rfl]
      exact ⟨rfl, hi.ended c hzero⟩
    · have hcc : c ≠ c' := by
        rintro rfl
        exact (hother hne hth).2 hc
      rw [if_neg hcc]
      exact hi.running hth hc
  · obtain ⟨hone, hresult⟩ := hi.answered c' h' t' reply hg
    have hcc : c ≠ c' := by
      rintro rfl
      omega
    rw [hbegan, hresults, if_neg hcc]
    exact ⟨hone, hresult⟩
  · rw [hbegan] at hc
    rw [hresults]
    exact hi.ended c' (by omega)
  · rw [hbegan]
    have := hi.single c'
    by_cases hcc : c = c'
    · subst hcc
      rw [hzero, if_pos rfl]
    · rw [if_neg hcc]
      omega

/-- The guest is done with a call. -/
theorem Commands.finish (hi : s.Commands) {c t : Nat} {thread : InstanceThread} (reply : Reply)
    (hthread : s.threads[t]? = some thread) (hphase : thread.phase = .calling c) :
    (push { s.setThread t { thread with phase := .serving } with
      calls := s.calls.modify c (CallFuture.answer reply) } (.finished c reply)).Commands := by
  obtain ⟨hone, hempty⟩ := hi.running hthread hphase
  have hother : ∀ {t' th}, t' ≠ t → s.threads[t']? = some th → th.phase ≠ .calling c :=
    fun hne hth hc => hne (hi.unique 0 0 hthread (.inr hphase) hth (.inr hc))
  have hcall : ∀ {c' : Nat} {f : CallFuture Reply}, s.calls[c']? = some f →
      ∃ f', (s.calls.modify c (CallFuture.answer reply))[c']? = some f' ∧ f'.sentTo = f.sentTo := by
    intro c' f hf
    rw [List.getElem?_modify, hf]
    refine ⟨_, rfl, ?_⟩
    split_ifs
    · exact sentTo_answer reply f
    · rfl
  have hbegan : ∀ c', (push { s.setThread t { thread with phase := .serving } with
      calls := s.calls.modify c (CallFuture.answer reply) } (.finished c reply)).began c' =
      s.began c' := fun c' => began_push_finished c' c reply
  have hresults : ∀ c', (push { s.setThread t { thread with phase := .serving } with
      calls := s.calls.modify c (CallFuture.answer reply) } (.finished c reply)).results c' =
      s.results c' ++ if c = c' then [reply] else [] := fun c' => results_push_finished c' c reply
  refine ⟨fun {t' c' h' th} hth hc => ?_, fun {t' th} c' hth => ?_, fun {c'} hnone => ?_,
    fun {t' c' th} hth hc => ?_, fun c' h' t' reply' hg => ?_, fun c' hc => ?_, fun c' => ?_⟩
  · have hold : ∃ f, s.calls[c']? = some f ∧ f.sentTo = some t' := by
      rcases setThread_getElem? hthread hth with ⟨rfl, rfl⟩ | ⟨-, hth⟩
      · rcases hc with hc | hc
        · exact hi.sent hthread (.inl hc)
        · cases hc
      · exact hi.sent hth hc
    obtain ⟨f, hf, hsent⟩ := hold
    obtain ⟨f', hf', hsame⟩ := hcall hf
    exact ⟨f', hf', hsame.trans hsent⟩
  · rw [hbegan]
    rcases setThread_getElem? hthread hth with ⟨rfl, rfl⟩ | ⟨-, hth⟩
    · have honce := hi.once c' hthread
      exact honce
    · exact hi.once c' hth
  · rw [hbegan]
    refine hi.unsent fun f hf => ?_
    obtain ⟨f', hf', hsame⟩ := hcall hf
    rw [← hsame]
    exact hnone f' hf'
  · rw [hbegan, hresults]
    rcases setThread_getElem? hthread hth with ⟨rfl, rfl⟩ | ⟨hne, hth⟩
    · cases hc
    · have hcc : c ≠ c' := by
        rintro rfl
        exact hother hne hth hc
      rw [if_neg hcc, List.append_nil]
      exact hi.running hth hc
  · rw [hbegan, hresults]
    have hg' : (s.calls.modify c (CallFuture.answer reply))[c']? = some (.replied h' t' reply') := hg
    rw [List.getElem?_modify] at hg'
    obtain ⟨f, hf, hfg⟩ := Option.map_eq_some_iff.mp hg'
    by_cases hcc : c = c'
    · subst hcc
      rw [if_pos rfl] at hfg ⊢
      rw [hempty]
      refine ⟨hone, ?_⟩
      cases f with
      | waiting h t =>
        cases hfg
        rfl
      | replied h t r =>
        -- it would have had its reply while it was executed
        have hbefore := (hi.answered c h t r hf).2
        rw [hempty] at hbefore
        cases hbefore
      | _ => cases hfg
    · rw [if_neg hcc] at hfg ⊢
      subst hfg
      rw [List.append_nil]
      exact hi.answered c' h' t' reply' hf
  · rw [hbegan] at hc
    have hcc : c ≠ c' := by
      rintro rfl
      omega
    rw [hresults, if_neg hcc, List.append_nil]
    exact hi.ended c' hc
  · rw [hbegan]
    exact hi.single c'

/-- A thread is spawned. -/
theorem Commands.spawn (hi : s.Commands) :
    Commands { s with threads := s.threads ++ [⟨.instantiating, none, false, []⟩] } := by
  refine ⟨fun {t c h th} hth hc => ?_, fun {t th} c hth => ?_, hi.unsent, fun {t c th} hth hc => ?_,
    hi.answered, hi.ended, hi.single⟩
  · rcases Token.getElem?_push_eq_some.mp hth with hth | ⟨-, rfl⟩
    · exact hi.sent hth hc
    · rcases hc with hc | hc
      · cases hc
      · cases hc
  · rcases Token.getElem?_push_eq_some.mp hth with hth | ⟨-, rfl⟩
    · exact hi.once c hth
    · rw [List.countP_nil, Nat.zero_add]
      exact hi.single c
  · rcases Token.getElem?_push_eq_some.mp hth with hth | ⟨-, rfl⟩
    · exact hi.running hth hc
    · cases hc

/-- A thread is told to stop. -/
theorem Commands.cancel (hi : s.Commands) (h t : Nat) :
    Commands { s with
      instances := s.instances.del h
      threads := s.threads.modify t fun thread => { thread with cancelled := true } } := by
  have hold : ∀ {t' : Nat} {th : InstanceThread}, (s.threads.modify t fun thread => { thread with cancelled := true })[t']? =
      some th → ∃ th', s.threads[t']? = some th' ∧ th.commands = th'.commands ∧
        th.phase = th'.phase := by
    intro t' th hth
    rw [List.getElem?_modify] at hth
    obtain ⟨th', hth', rfl⟩ := Option.map_eq_some_iff.mp hth
    refine ⟨th', hth', ?_⟩
    split_ifs
    · exact ⟨rfl, rfl⟩
    · exact ⟨rfl, rfl⟩
  refine ⟨fun {t' c h' th} hth hc => ?_, fun {t' th} c hth => ?_, hi.unsent,
    fun {t' c th} hth hc => ?_, hi.answered, hi.ended, hi.single⟩
  · obtain ⟨th', hth', hcommands, hphase⟩ := hold hth
    rw [hcommands, hphase] at hc
    exact hi.sent hth' hc
  · obtain ⟨th', hth', hcommands, -⟩ := hold hth
    rw [hcommands]
    exact hi.once c hth'
  · obtain ⟨th', hth', -, hphase⟩ := hold hth
    rw [hphase] at hc
    exact hi.running hth' hc

/-- A call begins. -/
theorem Commands.beginCall (hi : s.Commands) (h : Nat) :
    Commands { s with calls := s.calls ++ [.locking h] } := by
  refine ⟨fun {t c h' th} hth hc => ?_, hi.once, fun {c} hnone => ?_, hi.running,
    fun c h' t reply hg => ?_, hi.ended, hi.single⟩
  · obtain ⟨f, hf, hsent⟩ := hi.sent hth hc
    exact ⟨f, Token.getElem?_push_eq_some.mpr (.inl hf), hsent⟩
  · exact hi.unsent fun f hf => hnone f (Token.getElem?_push_eq_some.mpr (.inl hf))
  · rcases Token.getElem?_push_eq_some.mp hg with hg | ⟨-, heq⟩
    · exact hi.answered c h' t reply hg
    · cases heq

/-- STEP: a start. -/
theorem Commands.stepStart (hi : s.Commands) {i : Nat} {m : Move Reply}
    (h : s.stepStart i m = some s') : s'.Commands := by
  cases m with
  | fail _ =>
    rw [Runtime.stepStart] at h
    split at h
    · cases h
      exact hi.congr rfl rfl rfl
    · cases h
  | spawn _ =>
    rw [Runtime.stepStart] at h
    split at h
    · cases h
      exact hi.spawn.congr rfl rfl rfl
    · cases h
  | hear _ =>
    rw [Runtime.stepStart] at h
    split at h
    · split_ifs at h
      cases h
      exact hi.congr rfl rfl rfl
    · cases h
  | register _ =>
    rw [Runtime.stepStart] at h
    split at h
    · cases h
      exact hi.congr rfl rfl rfl
    · cases h
  | reject _ =>
    rw [Runtime.stepStart] at h
    split at h
    · split_ifs at h
      cases h
      exact hi.congr rfl rfl rfl
    · cases h
  | dropStart _ =>
    rw [Runtime.stepStart] at h
    split_ifs at h
    cases h
    exact hi.congr rfl rfl rfl
  | _ => cases h

/-- An event that is about no call. -/
theorem Commands.pushStopped (hi : s.Commands) (h : Nat) : (s.push (.stopped h)).Commands := by
  have hbegan : ∀ c, (s.push (.stopped h)).began c = s.began c := fun c => began_push_stopped c h
  have hresults : ∀ c, (s.push (.stopped h)).results c = s.results c := fun c =>
    results_push_stopped c h
  refine ⟨hi.sent, fun c hth => ?_, fun hnone => ?_, fun hth hc => ?_, fun c h' t reply hg => ?_,
    fun c hc => ?_, fun c => ?_⟩
  · rw [hbegan]
    exact hi.once c hth
  · rw [hbegan]
    exact hi.unsent hnone
  · rw [hbegan, hresults]
    exact hi.running hth hc
  · rw [hbegan, hresults]
    exact hi.answered c h' t reply hg
  · rw [hbegan] at hc
    rw [hresults]
    exact hi.ended c hc
  · rw [hbegan]
    exact hi.single c

/-- STEP: a stop. -/
theorem Commands.stepStop (hi : s.Commands) {k : Nat} {m : Move Reply}
    (h : s.stepStop k m = some s') : s'.Commands := by
  cases m with
  | remove _ =>
    rw [Runtime.stepStop] at h
    split at h
    · split at h
      · cases h
        exact hi.congr rfl rfl rfl
      · rename_i h₀ _ _ t _
        cases h
        exact (hi.cancel h₀ t).congr rfl rfl rfl
    · cases h
  | signal _ =>
    rw [Runtime.stepStop] at h
    split at h
    · split at h
      · cases h
      · rename_i thread hthread
        split_ifs at h
        · cases h
          exact hi.congr rfl rfl rfl
        · cases h
          have hsend := hi.setThread { thread with commands := thread.commands ++ [.stop k] } hthread
            (fun c hc => hc) (fun c h hmem => by
              rcases List.mem_append.mp hmem with hmem | hmem
              · exact hmem
              · cases List.mem_singleton.mp hmem)
            fun c => by simp [RuntimeCommand.isCall]
          exact hsend.congr rfl rfl rfl
    · cases h
  | acknowledge _ =>
    rw [Runtime.stepStop] at h
    split at h
    · split_ifs at h
      cases h
      exact hi.congr rfl rfl rfl
    · cases h
  | join _ =>
    rw [Runtime.stepStop] at h
    split at h
    · rename_i h₀ t hf
      split at h
      · have hreturned : (s.setStop k (.returned h₀ true)).Commands := hi.congr rfl rfl rfl
        cases h
        exact hreturned.pushStopped h₀
      · cases h
        exact hi.congr rfl rfl rfl
      · cases h
    · cases h
  | dropStop _ =>
    rw [Runtime.stepStop] at h
    split_ifs at h
    cases h
    exact hi.congr rfl rfl rfl
  | _ => cases h

/-- STEP: a call. -/
theorem Commands.stepCall (hi : s.Commands) {c : Nat} {m : Move Reply}
    (h : s.stepCall c m = some s') : s'.Commands := by
  cases m with
  | lookup _ =>
    rw [Runtime.stepCall] at h
    split at h
    · rename_i hf
      split at h
      · cases h
        exact hi.setCall _ hf rfl fun h t reply heq => by cases heq
      · cases h
        exact hi.setCall _ hf rfl fun h t reply heq => by cases heq
    · cases h
  | send _ =>
    rw [Runtime.stepCall] at h
    split at h
    · rename_i hf
      split at h
      · cases h
      · rename_i thread hthread
        split_ifs at h
        · cases h
          exact hi.setCall _ hf rfl fun h t reply heq => by cases heq
        · cases h
          exact hi.send hf hthread
    · cases h
  | lose _ =>
    rw [Runtime.stepCall] at h
    split at h
    · rename_i hf
      split_ifs at h
      cases h
      exact hi.setCall _ hf rfl fun h t reply heq => by cases heq
    · cases h
  | dropCall _ =>
    rw [Runtime.stepCall] at h
    split at h
    · rename_i hf
      cases h
      exact hi.setCall _ hf rfl fun h t reply heq => by cases heq
    · rename_i hf
      cases h
      exact hi.setCall _ hf rfl fun h t reply heq => by cases heq
    · rename_i hf
      cases h
      exact hi.setCall _ hf rfl fun h t reply heq => by cases heq
    · rename_i hf
      cases h
      exact hi.setCall _ hf rfl fun h t reply heq => by cases heq
    · cases h
  | _ => cases h

/-- STEP: a thread. -/
theorem Commands.stepThread (hi : s.Commands) {t : Nat} {thread : InstanceThread} {m : Move Reply}
    (hthread : s.threads[t]? = some thread) (h : s.stepThread t thread m = some s') :
    s'.Commands := by
  have hfinish : ∀ (thread' : InstanceThread) (ok : Bool),
      (s.setThread t (thread'.finish ok)).Commands := fun thread' ok =>
    hi.setThread _ hthread (fun c hc => by cases hc) (fun c h hmem => by cases hmem)
      fun c => by simp [InstanceThread.finish]
  have hrun : ∀ thread' : InstanceThread, thread'.commands = thread.commands →
      (∀ c, thread'.phase ≠ .calling c) → (s.setThread t thread').Commands :=
    fun thread' hsame hphase => hi.setThread thread' hthread (fun c hc => absurd hc (hphase c))
      (fun c h hmem => hsame ▸ hmem) fun c => by rw [hsame]
  cases m with
  | instantiate _ ok =>
    rw [Runtime.stepThread] at h
    split at h
    · split_ifs at h
      · cases h
        exact hrun _ rfl fun c hc => by cases hc
      · cases h
        exact hfinish _ _
    · cases h
  | enter _ trap =>
    rw [Runtime.stepThread] at h
    split at h
    · split_ifs at h
      · cases h
        exact hfinish _ _
      · cases h
        exact hrun _ rfl fun c hc => by cases hc
    · cases h
  | receive _ =>
    rw [Runtime.stepThread] at h
    split at h
    · split_ifs at h
      cases h
      exact hfinish _ _
    · rename_i c h₀ rest hphase hcommands
      cases h
      exact hi.begin hthread hcommands
    · cases h
      exact hfinish _ _
    · cases h
  | reply _ reply =>
    rw [Runtime.stepThread] at h
    split at h
    · rename_i c hphase
      cases h
      exact hi.finish reply hthread hphase
    · cases h
  | panic _ =>
    rw [Runtime.stepThread] at h
    split_ifs at h
    cases h
    exact hfinish _ _
  | _ => cases h

/-- STEP: every command is executed once at most, and replied to with what came of it. -/
theorem Commands.step (hi : s.Commands) {m : Move Reply} (h : s.step m = some s') :
    s'.Commands := by
  have hthread : ∀ t, (s.threads[t]?.bind fun thread => s.stepThread t thread m) = some s' →
      s'.Commands := by
    intro t ht
    obtain ⟨thread, hthread, hstep⟩ := Option.bind_eq_some_iff.mp ht
    exact hi.stepThread hthread hstep
  cases m with
  | start =>
    cases h
    exact hi.congr rfl rfl rfl
  | stop h₀ =>
    cases h
    exact hi.congr rfl rfl rfl
  | call h₀ =>
    cases h
    exact hi.beginCall h₀
  | fail i => exact hi.stepStart (i := i) (m := .fail i) h
  | spawn i => exact hi.stepStart (i := i) (m := .spawn i) h
  | hear i => exact hi.stepStart (i := i) (m := .hear i) h
  | register i => exact hi.stepStart (i := i) (m := .register i) h
  | reject i => exact hi.stepStart (i := i) (m := .reject i) h
  | dropStart i => exact hi.stepStart (i := i) (m := .dropStart i) h
  | remove k => exact hi.stepStop (k := k) (m := .remove k) h
  | signal k => exact hi.stepStop (k := k) (m := .signal k) h
  | acknowledge k => exact hi.stepStop (k := k) (m := .acknowledge k) h
  | join k => exact hi.stepStop (k := k) (m := .join k) h
  | dropStop k => exact hi.stepStop (k := k) (m := .dropStop k) h
  | lookup c => exact hi.stepCall (c := c) (m := .lookup c) h
  | send c => exact hi.stepCall (c := c) (m := .send c) h
  | lose c => exact hi.stepCall (c := c) (m := .lose c) h
  | dropCall c => exact hi.stepCall (c := c) (m := .dropCall c) h
  | instantiate t ok => exact hthread t h
  | enter t trap => exact hthread t h
  | receive t => exact hthread t h
  | reply t reply => exact hthread t h
  | panic t => exact hthread t h

theorem Commands.start : Commands ({} : Runtime Reply) := by
  refine ⟨fun {t c h th} hth => ?_, fun {t th} c hth => ?_, fun {c} _ => rfl, fun {t c th} hth => ?_,
    fun c h t reply hc => ?_, fun c _ => rfl, fun c => Nat.zero_le _⟩
  · cases hth
  · cases hth
  · cases hth
  · cases hc

/-! ### Runs -/

/-- What is promised of a state that is reached. -/
structure Promise (s : Runtime Reply) : Prop where
  owned : s.AllOwned
  stopped : s.Stopped
  final : s.Final
  answered : s.Answered

/-- RUN: as long as no future is dropped with the join handle of a thread that runs, every thread
    that runs has one owner, a handle whose stop returned `Ok` stands for an ended thread and is never
    executed on again, and every reply is the result of the one execution of its call. -/
theorem promise_of_kept {moves : List (Move Reply)} (hkept : Along Runtime.step Kept {} moves)
    (hrun : exec Runtime.step {} moves = some s) : s.Promise := by
  have hinv : s.Owners ∧ s.Handles ∧ s.Commands := by
    refine ReachesBy.invariant (I := fun s => s.Owners ∧ s.Handles ∧ s.Commands)
      ⟨moves, hrun, hkept⟩ (fun s m s' hinv hkept h => ?_) ⟨.start, .start, .start⟩
    obtain ⟨howners, hhandles, hcommands⟩ := hinv
    exact ⟨howners.step hkept h, hhandles.step h, hcommands.step h⟩
  obtain ⟨howners, hhandles, hcommands⟩ := hinv
  exact ⟨howners.allOwned, fun k h hk => hhandles.stopped hk, hhandles.final, hcommands.answered⟩

/-- A start, a call and a stop, none of them dropped. -/
def sampleMoves : List (Move Unit) :=
  [.start, .spawn 0, .instantiate 0 true, .hear 0, .register 0, .enter 0 false, .call 0, .lookup 0,
    .send 0, .receive 0, .reply 0 (), .stop 0, .remove 0, .signal 0, .receive 0, .acknowledge 0,
    .join 0]

theorem promise_of_kept_sample : ∃ s : Runtime Unit,
    exec Runtime.step {} sampleMoves = some s ∧ s.began 0 = 1 ∧ s.Promise := by
  obtain ⟨s, hs, hbegan⟩ : ∃ s : Runtime Unit,
      exec Runtime.step {} sampleMoves = some s ∧ s.began 0 = 1 := ⟨_, rfl, rfl⟩
  refine ⟨s, hs, hbegan, promise_of_kept ?_ hs⟩
  exact Along.of_forall_mem fun m hm s => by
    simp only [sampleMoves, List.mem_cons, List.not_mem_nil, or_false] at hm
    rcases hm with rfl | rfl | rfl | rfl | rfl | rfl | rfl | rfl | rfl | rfl | rfl | rfl | rfl |
      rfl | rfl | rfl | rfl <;> exact trivial

/-- The future is dropped at `ready_rx.await`, and the thread it spawned runs on. -/
def droppedStart : List (Move Unit) := [.start, .spawn 0, .dropStart 0]

/-- The guest of a dropped start belongs to nobody. -/
theorem droppedStart_unowned : ∃ s : Runtime Unit,
    exec Runtime.step {} droppedStart = some s ∧ ¬ s.Promise := by
  refine ⟨_, rfl, fun hpromise => ?_⟩
  obtain ⟨h, hentry, -⟩ := hpromise.owned ⟨by decide, by decide⟩ 0 ⟨_, rfl, rfl⟩
  cases hentry

end Runtime

end Gamer.Extensions.Instances
