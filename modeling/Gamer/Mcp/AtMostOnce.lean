import Gamer.Mcp.Receipts

/-! A side effect happens at most once. Of the calls of one key one at most is between its reservation
    and its receipt, and what the key's logs have so far is what its stage allows:

        no receipt      admitted        calling         completing, finishing
        [] []           [] []           [i] []          [i] [r]                 started, completed

    A receipt that is left pending by a crash is never taken again.                              -/

namespace Gamer.Mcp.Receipts
open Gamer.Lib Gamer.Lib.Machine Gamer.Lib.Token Gamer.Core

variable {host : Host} {s s' : Service} {i : Nat} {c : Call} {k : ReceiptKey}

/-! ### What the receipts promise -/

def Service.startedOf (s : Service) (k : ReceiptKey) : List Invocation :=
  s.started.filter fun invocation => invocation.key = k

def Service.completedOf (s : Service) (k : ReceiptKey) : List (ReceiptKey × ToolResult) :=
  s.completed.filter fun entry => entry.1 = k

/-- SAFETY: the provider is called at most once for a key, and with the first arguments; a call with
    other arguments is a conflict to the receipts unless the database fails; and an answer has the
    result of the one completed call, for a credential that was active. -/
structure Service.AtMostOnce (s : Service) : Prop where
  once : ∀ k, (s.startedOf k).length ≤ 1
  first : ∀ invocation ∈ s.started, s.first.get invocation.key = some invocation.arguments
  conflict : ∀ ask ∈ s.asks, ∀ arguments, s.first.get ask.key = some arguments →
    ask.arguments.toText ≠ arguments.toText → ask.admission = some .conflict ∨ ask.admission = none
  answers : ∀ answer ∈ s.answers, answer.active = true ∧
    s.completedOf answer.key = [(answer.key, answer.result)]

/-- Reading a result's text back gives the result, where it can be read at all. -/
def Host.Faithful (host : Host) (result : ToolResult) : Prop :=
  ∀ text, host.print result = some text → ∀ read, host.parse text = some read → read = result

/-- What a provider returns is read back as it is. -/
def Service.kept (host : Host) (_ : Service) : Move → Prop
  | .provided _ result conforms => host.Faithful (checkedResult result conforms)
  | _ => True

/-! ### The invariant -/

/-- The call has reserved its key, and has not yet stored or given up its result. -/
def Phase.holds : Phase → Option Unit
  | .admitted | .calling | .completing _ => some ()
  | _ => none

def Call.view (k : ReceiptKey) (c : Call) : Option Unit :=
  if c.key = some k then c.phase.holds else none

/-- What a stage of a call says about its key. -/
def Service.Stage (s : Service) (k : ReceiptKey) (arguments : Json) : Phase → Prop
  | .admitted => s.first.get k = some arguments ∧ s.startedOf k = [] ∧ s.completedOf k = []
  | .calling => s.first.get k = some arguments ∧ s.completedOf k = []
  | .completing result | .finishing result => s.completedOf k = [(k, result)]
  | _ => True

/-- What the receipt of a key says about it. -/
structure Service.KeyInv (host : Host) (s : Service) (k : ReceiptKey) : Prop where
  owned : ∃ owner, Owned (Call.view k) owner s.calls
  fresh : s.receipts.get k = none → s.startedOf k = [] ∧ s.completedOf k = [] ∧
    s.first.get k = none ∧ ∀ c ∈ s.calls, c.view k = none
  receipt : ∀ receipt, s.receipts.get k = some receipt → ∃ arguments,
    s.first.get k = some arguments ∧ receipt.fingerprint = host.hashJson arguments ∧
      ∀ text, receipt.resultJson = some text →
        ∃ result, s.completedOf k = [(k, result)] ∧ host.print result = some text
  once : (s.startedOf k).length ≤ 1
  first : ∀ invocation ∈ s.startedOf k, s.first.get k = some invocation.arguments
  faithful : ∀ entry ∈ s.completedOf k, host.Faithful entry.2

/-- INVARIANT: every key and every call of one. -/
structure Service.Inv (host : Host) (s : Service) : Prop where
  key : ∀ k, s.KeyInv host k
  token : ∀ c ∈ s.calls, ∀ k, c.key = some k → k.tokenId = c.tokenId
  stage : ∀ c ∈ s.calls, ∀ k, c.key = some k → s.Stage k c.arguments c.phase
  conflict : ∀ ask ∈ s.asks, ∀ arguments, s.first.get ask.key = some arguments →
    ask.arguments.toText ≠ arguments.toText → ask.admission = some .conflict ∨ ask.admission = none
  asked : ∀ ask ∈ s.asks, ask.admission ≠ none → s.first.get ask.key ≠ none
  answers : ∀ answer ∈ s.answers, answer.active = true ∧
    s.completedOf answer.key = [(answer.key, answer.result)]

theorem Service.Inv.atMostOnce (h : s.Inv host) : s.AtMostOnce where
  once := fun k => (h.key k).once
  first := by
    intro invocation hmem
    exact (h.key invocation.key).first invocation (List.mem_filter.mpr ⟨hmem, by simp⟩)
  conflict := h.conflict
  answers := h.answers

theorem start_inv : Service.Inv host {} where
  key := by
    intro k
    exact ⟨⟨none, Owned.nil⟩, fun _ => ⟨rfl, rfl, rfl, nofun⟩, nofun, Nat.zero_le _, nofun, nofun⟩
  token := nofun
  stage := nofun
  conflict := nofun
  asked := nofun
  answers := nofun


/-! ### A call goes on -/

theorem Call.view_of_ne {p : Phase} (hne : c.key ≠ some k) : Call.view k { c with phase := p } = none :=
  if_neg hne

theorem Call.view_of_eq {p : Phase} (hk : c.key = some k) :
    Call.view k { c with phase := p } = p.holds := if_pos hk

/-- The invariant of a key whose call, if it has one, is elsewhere. -/
theorem Service.KeyInv.frame (h : s.KeyInv host k)
    (howned : ∃ owner, Owned (Call.view k) owner s'.calls)
    (hviews : (∀ c ∈ s.calls, c.view k = none) → ∀ c ∈ s'.calls, c.view k = none)
    (hreceipt : s'.receipts.get k = s.receipts.get k) (hfirst : s'.first.get k = s.first.get k)
    (hstarted : s'.startedOf k = s.startedOf k) (hcompleted : s'.completedOf k = s.completedOf k) :
    s'.KeyInv host k where
  owned := howned
  fresh := by
    intro hnone
    obtain ⟨hs, hc, hf, hv⟩ := h.fresh (hreceipt ▸ hnone)
    exact ⟨hstarted.trans hs, hcompleted.trans hc, hfirst.trans hf, hviews hv⟩
  receipt := by
    rw [hreceipt, hfirst, hcompleted]
    exact h.receipt
  once := by
    rw [hstarted]
    exact h.once
  first := by
    rw [hstarted, hfirst]
    exact h.first
  faithful := by
    rw [hcompleted]
    exact h.faithful

theorem Service.Stage.frame {arguments : Json} {p : Phase} (h : s.Stage k arguments p)
    (hfirst : s'.first.get k = s.first.get k) (hstarted : s'.startedOf k = s.startedOf k)
    (hcompleted : s'.completedOf k = s.completedOf k) : s'.Stage k arguments p := by
  cases p with
  | admitted => exact ⟨hfirst.trans h.1, hstarted.trans h.2.1, hcompleted.trans h.2.2⟩
  | calling => exact ⟨hfirst.trans h.1, hcompleted.trans h.2⟩
  | completing result => exact hcompleted.trans h
  | finishing result => exact hcompleted.trans h
  | authorizing => trivial
  | reserving => trivial
  | ended => trivial

/-- What a step changes of the key `k`, and of nothing else. -/
structure Service.Agrees (s s' : Service) (k : ReceiptKey) : Prop where
  receipt : s'.receipts.get k = s.receipts.get k
  first : s'.first.get k = s.first.get k
  started : s'.startedOf k = s.startedOf k
  completed : s'.completedOf k = s.completedOf k

/-- RULE: a call goes on, and what it changes is about its own key. -/
theorem Service.Inv.change {p : Phase} (h : s.Inv host) (hc : s.calls[i]? = some c)
    (hcalls : s'.calls = s.calls.set i { c with phase := p })
    (hother : ∀ k, c.key ≠ some k → s.Agrees s' k)
    (hown : ∀ k, c.key = some k → s'.KeyInv host k ∧ s'.Stage k c.arguments p ∧
      ∀ (j : Nat) (d : Call), j ≠ i → s.calls[j]? = some d → d.key = some k →
        s'.Stage k d.arguments d.phase)
    (hfirst : ∀ k, s.first.get k ≠ none → s'.first.get k = s.first.get k)
    (hcompleted : ∀ k, s.completedOf k ≠ [] → s'.completedOf k = s.completedOf k)
    (hasks : ∀ ask ∈ s'.asks, ask ∈ s.asks ∨ (ask.admission ≠ none → s'.first.get ask.key ≠ none) ∧
      ∀ arguments, s'.first.get ask.key = some arguments →
        ask.arguments.toText ≠ arguments.toText →
          ask.admission = some .conflict ∨ ask.admission = none)
    (hanswers : ∀ answer ∈ s'.answers, answer ∈ s.answers ∨ answer.active = true ∧
      s'.completedOf answer.key = [(answer.key, answer.result)]) : s'.Inv host where
  key := by
    intro k
    by_cases hk : c.key = some k
    · exact (hown k hk).1
    · obtain ⟨owner, howned⟩ := (h.key k).owned
      have hagrees := hother k hk
      refine (h.key k).frame ⟨owner, ?_⟩ ?_ hagrees.receipt hagrees.first hagrees.started
        hagrees.completed
      · rw [hcalls]
        exact howned.keep hc ((Call.view_of_ne hk).trans (Call.view_of_ne hk).symm)
      · intro hnone d hd
        rw [hcalls] at hd
        rcases List.mem_or_eq_of_mem_set hd with hd | rfl
        · exact hnone d hd
        · exact Call.view_of_ne hk
  token := by
    intro d hd k hk
    rw [hcalls] at hd
    rcases List.mem_or_eq_of_mem_set hd with hd | rfl
    · exact h.token d hd k hk
    · exact h.token c (List.mem_of_getElem? hc) k hk
  stage := by
    intro d hd k hk
    rw [hcalls] at hd
    obtain ⟨j, hj⟩ := List.mem_iff_getElem?.mp hd
    rcases (getElem?_set_eq_some hc).mp hj with ⟨-, rfl⟩ | ⟨hne, hj⟩
    · exact (hown k hk).2.1
    · by_cases hck : c.key = some k
      · exact (hown k hck).2.2 j d hne hj hk
      · have hagrees := hother k hck
        exact (h.stage d (List.mem_of_getElem? hj) k hk).frame hagrees.first hagrees.started
          hagrees.completed
  conflict := by
    intro ask hask arguments hget hne
    rcases hasks ask hask with hold | ⟨-, hnew⟩
    · by_cases hadmission : ask.admission = none
      · exact Or.inr hadmission
      · rw [hfirst _ (h.asked ask hold hadmission)] at hget
        exact h.conflict ask hold arguments hget hne
    · exact hnew arguments hget hne
  asked := by
    intro ask hask hadmission
    rcases hasks ask hask with hold | ⟨hnew, -⟩
    · rw [hfirst _ (h.asked ask hold hadmission)]
      exact h.asked ask hold hadmission
    · exact hnew hadmission
  answers := by
    intro answer hanswer
    rcases hanswers answer hanswer with hold | hnew
    · obtain ⟨hactive, hone⟩ := h.answers answer hold
      exact ⟨hactive, (hcompleted _ (by rw [hone]; exact List.cons_ne_nil _ _)).trans hone⟩
    · exact hnew

/-- A call that is not its key's holder any more says nothing about it. -/
theorem Service.KeyInv.release {p : Phase} (h : s.KeyInv host k) (hc : s.calls[i]? = some c)
    (hp : p.holds = none) : (s.setCall i c p).KeyInv host k := by
  obtain ⟨owner, howned⟩ := h.owned
  have hview : Call.view k { c with phase := p } = none := by
    unfold Call.view
    split
    · exact hp
    · rfl
  refine h.frame ?_ ?_ rfl rfl rfl rfl
  · cases hcv : c.view k with
    | none => exact ⟨owner, howned.keep hc (hview.trans hcv.symm)⟩
    | some r => exact ⟨none, howned.give hc hcv hview⟩
  · intro hnone d hd
    rcases List.mem_or_eq_of_mem_set hd with hd | rfl
    · exact hnone d hd
    · exact hview

/-- A call gives up, or goes on to what says nothing about its key. -/
theorem Service.Inv.leave {p : Phase} (h : s.Inv host) (hc : s.calls[i]? = some c)
    (hp : p.holds = none) (hstage : ∀ k, c.key = some k → s.Stage k c.arguments p) :
    (s.setCall i c p).Inv host := by
  refine h.change hc rfl (fun k _ => ⟨rfl, rfl, rfl, rfl⟩) ?_ (fun _ _ => rfl) (fun _ _ => rfl)
    (fun ask hask => Or.inl hask) (fun answer hanswer => Or.inl hanswer)
  intro k hk
  refine ⟨(h.key k).release hc hp, hstage k hk, ?_⟩
  intro j d _ hd hdk
  exact h.stage d (List.mem_of_getElem? hd) k hdk

theorem Service.Inv.ended (h : s.Inv host) (hc : s.calls[i]? = some c) :
    (s.setCall i c .ended).Inv host := h.leave hc rfl fun _ _ => trivial

/-- A call without a key goes on as it likes. -/
theorem Service.Inv.keyless {p : Phase} (h : s.Inv host) (hc : s.calls[i]? = some c)
    (hnone : c.key = none) : (s.setCall i c p).Inv host := by
  refine h.change hc rfl (fun k _ => ⟨rfl, rfl, rfl, rfl⟩) ?_ (fun _ _ => rfl) (fun _ _ => rfl)
    (fun ask hask => Or.inl hask) (fun answer hanswer => Or.inl hanswer)
  intro k hk
  rw [hnone] at hk
  cases hk

/-! ### The receipts -/

/-- A call asks the receipts and is not admitted. -/
theorem Service.Inv.refused {p : Phase} {outcome : Option Admission} (h : s.Inv host)
    (hc : s.calls[i]? = some c) (hk : c.key = some k) (hp : p.holds = none)
    (hstage : s.Stage k c.arguments p)
    (hasked : outcome ≠ none → s.first.get k ≠ none)
    (hconflict : ∀ arguments, s.first.get k = some arguments →
      c.arguments.toText ≠ arguments.toText → outcome = some .conflict ∨ outcome = none) :
    (Service.setCall { s with asks := ⟨k, c.arguments, outcome⟩ :: s.asks } i c p).Inv host := by
  refine h.change hc rfl (fun k _ => ⟨rfl, rfl, rfl, rfl⟩) ?_ (fun _ _ => rfl) (fun _ _ => rfl) ?_
    (fun answer hanswer => Or.inl hanswer)
  · intro k' hk'
    obtain rfl : k = k' := Option.some.inj (hk.symm.trans hk')
    refine ⟨?_, hstage.frame rfl rfl rfl, ?_⟩
    · have hkey := (h.key k).release hc hp
      exact ⟨hkey.owned, hkey.fresh, hkey.receipt, hkey.once, hkey.first, hkey.faithful⟩
    · intro j d _ hd hdk
      exact (h.stage d (List.mem_of_getElem? hd) k hdk).frame rfl rfl rfl
  · intro ask hask
    rcases List.mem_cons.mp hask with rfl | hask
    · exact Or.inr ⟨hasked, hconflict⟩
    · exact Or.inl hask

/-- A call is the first of its key. -/
theorem Service.Inv.admitted (h : s.Inv host) (hc : s.calls[i]? = some c) (hk : c.key = some k)
    (hnone : s.receipts.get k = none) :
    (Service.setCall { s with
      asks := ⟨k, c.arguments, some .new⟩ :: s.asks
      receipts := s.receipts.set k ⟨host.hashJson c.arguments, none⟩
      first := s.first.set k c.arguments } i c .admitted).Inv host := by
  obtain ⟨hstarted, hcompleted, hfirst, hviews⟩ := (h.key k).fresh hnone
  have hget : (s.first.set k c.arguments).get k = some c.arguments := Table.get_set_self ..
  refine h.change hc rfl ?_ ?_ ?_ (fun _ _ => rfl) ?_ (fun answer hanswer => Or.inl hanswer)
  · intro k' hne
    have hne' : k' ≠ k := by
      rintro rfl
      exact hne hk
    exact ⟨Table.get_set_ne hne' .., Table.get_set_ne hne' .., rfl, rfl⟩
  · intro k' hk'
    obtain rfl : k = k' := Option.some.inj (hk.symm.trans hk')
    refine ⟨⟨?_, ?_, ?_, ?_, ?_, ?_⟩, ⟨hget, hstarted, hcompleted⟩, ?_⟩
    · obtain ⟨owner, howned⟩ := (h.key k).owned
      have hfree : owner = none := by
        cases owner with
        | none => rfl
        | some x =>
          obtain ⟨d, hd, hr⟩ := (howned x.1 x.2).mp rfl
          rw [hviews d (List.mem_of_getElem? hd)] at hr
          cases hr
      subst hfree
      exact ⟨_, howned.take hc (Call.view_of_eq hk)⟩
    · intro hget'
      have hset : (s.receipts.set k ⟨host.hashJson c.arguments, none⟩).get k = none := hget'
      rw [Table.get_set_self] at hset
      cases hset
    · intro receipt hget'
      have hset : (s.receipts.set k ⟨host.hashJson c.arguments, none⟩).get k = some receipt := hget'
      rw [Table.get_set_self] at hset
      cases hset
      exact ⟨c.arguments, hget, rfl, nofun⟩
    · show (s.startedOf k).length ≤ 1
      rw [hstarted]
      exact Nat.zero_le _
    · intro invocation hmem
      have hmem' : invocation ∈ s.startedOf k := hmem
      rw [hstarted] at hmem'
      cases hmem'
    · exact (h.key k).faithful
    · intro j d hne hd hdk
      have hstage := h.stage d (List.mem_of_getElem? hd) k hdk
      have hview := hviews d (List.mem_of_getElem? hd)
      rw [Call.view, if_pos hdk] at hview
      cases hphase : d.phase with
      | finishing result =>
        rw [hphase] at hstage
        exact hstage
      | admitted | calling | completing _ =>
        rw [hphase] at hview
        cases hview
      | authorizing | reserving | ended => trivial
  · intro k' hsome
    by_cases heq : k' = k
    · subst heq
      exact absurd hfirst hsome
    · exact Table.get_set_ne heq ..
  · intro ask hask
    rcases List.mem_cons.mp hask with rfl | hask
    · have hsome : (s.first.set k c.arguments).get k ≠ none := by
        rw [hget]
        exact Option.some_ne_none _
      refine Or.inr ⟨fun _ => hsome, ?_⟩
      intro arguments hget' hne
      have hset : (s.first.set k c.arguments).get k = some arguments := hget'
      rw [hget] at hset
      exact absurd (congrArg Json.toText (Option.some.inj hset)) hne
    · exact Or.inl hask

theorem Service.Inv.reserve (hsha : Function.Injective host.sha256) (h : s.Inv host)
    (hc : s.calls[i]? = some c) (hk : c.key = some k) : (s.reserve host i c k).Inv host := by
  unfold Service.reserve
  cases hreceipt : s.receipts.get k with
  | none => exact h.admitted hc hk hreceipt
  | some receipt =>
    obtain ⟨arguments, hfirst, hfingerprint, hstored⟩ := (h.key k).receipt receipt hreceipt
    have hasked : s.first.get k ≠ none := by
      rw [hfirst]
      exact Option.some_ne_none _
    by_cases hsame : receipt.fingerprint = host.hashJson c.arguments
    · have htext : c.arguments.toText = arguments.toText :=
        hsha (hsame.symm.trans hfingerprint)
      have hagree : ∀ a, s.first.get k = some a → c.arguments.toText ≠ a.toText → False := by
        intro a ha hne
        rw [hfirst] at ha
        cases ha
        exact hne htext
      simp only [admission, hsame, ne_eq, not_true_eq_false, if_false]
      cases hresult : receipt.resultJson with
      | none =>
        exact h.refused (p := .ended) hc hk rfl trivial (fun _ => hasked) fun a ha hne => (hagree a ha hne).elim
      | some text =>
        cases hparse : host.parse text with
        | none =>
          simp only [hparse]
          exact h.refused (p := .ended) hc hk rfl trivial (fun _ => hasked)
            fun a ha hne => (hagree a ha hne).elim
        | some read =>
          obtain ⟨result, hcompleted, hprint⟩ := hstored text hresult
          have hread : read = result :=
            (h.key k).faithful (k, result) (by rw [hcompleted]; exact List.mem_singleton.mpr rfl)
              text hprint read hparse
          subst hread
          simp only [hparse]
          exact h.refused (p := .finishing read) hc hk rfl hcompleted (fun _ => hasked)
            fun a ha hne => (hagree a ha hne).elim
    · simp only [admission, hsame, ne_eq, not_false_eq_true, if_true]
      exact h.refused (p := .ended) hc hk rfl trivial (fun _ => hasked) fun _ _ _ => Or.inl rfl

/-! ### The provider -/

/-- No other call of the holder's key has a result, or is where it says something about it. -/
theorem Service.Inv.alone {r : Unit} (h : s.Inv host) (hc : s.calls[i]? = some c)
    (hr : c.view k = some r) {j : Nat} {d : Call} (hne : j ≠ i) (hd : s.calls[j]? = some d)
    (hdk : d.key = some k) : d.phase.holds = none := by
  obtain ⟨owner, howned⟩ := (h.key k).owned
  cases hholds : d.phase.holds with
  | none => rfl
  | some r' =>
    have hview : d.view k = some r' := by
      rw [Call.view, if_pos hdk, hholds]
    exact absurd (howned.unique hd hview hc hr) hne

theorem Service.startedOf_cons (invocation : Invocation) (k : ReceiptKey) :
    ({ s with started := invocation :: s.started } : Service).startedOf k =
      if invocation.key = k then invocation :: s.startedOf k else s.startedOf k := by
  simp only [Service.startedOf, List.filter_cons, decide_eq_true_eq]

theorem Service.completedOf_cons (entry : ReceiptKey × ToolResult) (k : ReceiptKey) :
    ({ s with completed := entry :: s.completed } : Service).completedOf k =
      if entry.1 = k then entry :: s.completedOf k else s.completedOf k := by
  simp only [Service.completedOf, List.filter_cons, decide_eq_true_eq]

/-- The provider is called. -/
theorem Service.Inv.invoke (h : s.Inv host) (hc : s.calls[i]? = some c) (hk : c.key = some k)
    (hphase : c.phase = .admitted) :
    (Service.setCall { s with started := ⟨k, c.arguments⟩ :: s.started } i c .calling).Inv
      host := by
  have hstage := h.stage c (List.mem_of_getElem? hc) k hk
  rw [hphase] at hstage
  obtain ⟨hfirst, hstarted, hcompleted⟩ := hstage
  have hview : c.view k = some () := by
    rw [Call.view, if_pos hk, hphase]
    rfl
  refine h.change hc rfl ?_ ?_ (fun _ _ => rfl) (fun _ _ => rfl) (fun ask hask => Or.inl hask)
    (fun answer hanswer => Or.inl hanswer)
  · intro k' hne
    refine ⟨rfl, rfl, ?_, rfl⟩
    have hne' : k ≠ k' := by
      rintro rfl
      exact hne hk
    exact (Service.startedOf_cons _ _).trans (if_neg hne')
  · intro k' hk'
    obtain rfl : k = k' := Option.some.inj (hk.symm.trans hk')
    have hnow : (Service.setCall { s with started := ⟨k, c.arguments⟩ :: s.started } i c
        .calling).startedOf k = [⟨k, c.arguments⟩] := by
      refine (Service.startedOf_cons _ _).trans ?_
      rw [if_pos rfl, hstarted]
    have hkey := h.key k
    refine ⟨⟨?_, ?_, hkey.receipt, ?_, ?_, hkey.faithful⟩, ⟨hfirst, hcompleted⟩, ?_⟩
    · obtain ⟨owner, howned⟩ := hkey.owned
      exact ⟨_, howned.change hc hview (Call.view_of_eq hk)⟩
    · intro hnone
      have hviews := (hkey.fresh hnone).2.2.2 c (List.mem_of_getElem? hc)
      rw [hview] at hviews
      cases hviews
    · rw [hnow]
      exact Nat.le_refl _
    · rw [hnow]
      intro invocation hmem
      rw [List.mem_singleton.mp hmem]
      exact hfirst
    · intro j d hne hd hdk
      have hfree := h.alone hc hview hne hd hdk
      have hdstage := h.stage d (List.mem_of_getElem? hd) k hdk
      cases hdphase : d.phase with
      | finishing result =>
        rw [hdphase] at hdstage
        exact hdstage
      | admitted | calling | completing _ =>
        rw [hdphase] at hfree
        cases hfree
      | authorizing | reserving | ended => trivial

/-- The provider returns. -/
theorem Service.Inv.return {result : ToolResult} (h : s.Inv host) (hc : s.calls[i]? = some c)
    (hk : c.key = some k) (hphase : c.phase = .calling) (hfaithful : host.Faithful result) :
    (Service.setCall { s with completed := (k, result) :: s.completed } i c
      (.completing result)).Inv host := by
  have hstage := h.stage c (List.mem_of_getElem? hc) k hk
  rw [hphase] at hstage
  obtain ⟨hfirst, hcompleted⟩ := hstage
  have hview : c.view k = some () := by
    rw [Call.view, if_pos hk, hphase]
    rfl
  have hnow : (Service.setCall { s with completed := (k, result) :: s.completed } i c
      (.completing result)).completedOf k = [(k, result)] := by
    refine (Service.completedOf_cons _ _).trans ?_
    rw [if_pos rfl, hcompleted]
  have hother : ∀ k', k ≠ k' → (Service.setCall { s with completed := (k, result) :: s.completed }
      i c (.completing result)).completedOf k' = s.completedOf k' := fun k' hne =>
    (Service.completedOf_cons _ _).trans (if_neg hne)
  refine h.change hc rfl ?_ ?_ (fun _ _ => rfl) ?_ (fun ask hask => Or.inl hask)
    (fun answer hanswer => Or.inl hanswer)
  · intro k' hne
    refine ⟨rfl, rfl, rfl, hother k' ?_⟩
    rintro rfl
    exact hne hk
  · intro k' hk'
    obtain rfl : k = k' := Option.some.inj (hk.symm.trans hk')
    have hkey := h.key k
    refine ⟨⟨?_, ?_, ?_, hkey.once, hkey.first, ?_⟩, hnow, ?_⟩
    · obtain ⟨owner, howned⟩ := hkey.owned
      exact ⟨_, howned.change hc hview (Call.view_of_eq hk)⟩
    · intro hnone
      have hviews := (hkey.fresh hnone).2.2.2 c (List.mem_of_getElem? hc)
      rw [hview] at hviews
      cases hviews
    · intro receipt hget
      obtain ⟨arguments, harguments, hfingerprint, hstored⟩ := hkey.receipt receipt hget
      refine ⟨arguments, harguments, hfingerprint, ?_⟩
      intro text htext
      obtain ⟨stored, hone, -⟩ := hstored text htext
      rw [hcompleted] at hone
      cases hone
    · rw [hnow]
      intro entry hmem
      rw [List.mem_singleton.mp hmem]
      exact hfaithful
    · intro j d hne hd hdk
      have hfree := h.alone hc hview hne hd hdk
      have hdstage := h.stage d (List.mem_of_getElem? hd) k hdk
      cases hdphase : d.phase with
      | finishing stored =>
        rw [hdphase] at hdstage
        have hone : s.completedOf k = [(k, stored)] := hdstage
        rw [hcompleted] at hone
        cases hone
      | admitted | calling | completing _ =>
        rw [hdphase] at hfree
        cases hfree
      | authorizing | reserving | ended => trivial
  · intro k' hsome
    refine hother k' ?_
    rintro rfl
    exact hsome hcompleted

/-- The result is stored. -/
theorem Service.Inv.complete {result : ToolResult} (h : s.Inv host) (hc : s.calls[i]? = some c)
    (hk : c.key = some k) (hphase : c.phase = .completing result) :
    (s.complete host i c k result).Inv host := by
  have hstage := h.stage c (List.mem_of_getElem? hc) k hk
  rw [hphase] at hstage
  have hcompleted : s.completedOf k = [(k, result)] := hstage
  unfold Service.complete
  split
  · exact h.ended hc
  · rename_i text hprint
    split
    · exact h.ended hc
    · split
      · rename_i receipt hreceipt
        split
        · have hget : (s.receipts.set k { receipt with resultJson := some text }).get k =
              some { receipt with resultJson := some text } := Table.get_set_self ..
          refine h.change hc rfl ?_ ?_ (fun _ _ => rfl) (fun _ _ => rfl)
            (fun ask hask => Or.inl hask) (fun answer hanswer => Or.inl hanswer)
          · intro k' hne
            refine ⟨Table.get_set_ne ?_ .., rfl, rfl, rfl⟩
            rintro rfl
            exact hne hk
          · intro k' hk'
            obtain rfl : k = k' := Option.some.inj (hk.symm.trans hk')
            have hkey := (h.key k).release (p := .finishing result) hc rfl
            refine ⟨⟨hkey.owned, ?_, ?_, hkey.once, hkey.first, hkey.faithful⟩, hcompleted, ?_⟩
            · intro hnone
              have hset : (s.receipts.set k { receipt with resultJson := some text }).get k = none :=
                hnone
              rw [hget] at hset
              cases hset
            · intro stored hstored
              have hset : (s.receipts.set k { receipt with resultJson := some text }).get k =
                  some stored := hstored
              rw [hget] at hset
              cases hset
              obtain ⟨arguments, harguments, hfingerprint, -⟩ := (h.key k).receipt receipt hreceipt
              refine ⟨arguments, harguments, hfingerprint, ?_⟩
              intro text' htext
              cases htext
              exact ⟨result, hcompleted, hprint⟩
            · intro j d _ hd hdk
              exact (h.stage d (List.mem_of_getElem? hd) k hdk).frame rfl rfl rfl
        · exact h.ended hc
      · exact h.ended hc

/-- The call is answered. -/
theorem Service.Inv.answer {result : ToolResult} (h : s.Inv host) (hc : s.calls[i]? = some c)
    (hk : c.key = some k) (hphase : c.phase = .finishing result)
    (hactive : s.isActive c.tokenId = true) :
    (Service.setCall { s with
      answers := ⟨k, result, s.isActive k.tokenId⟩ :: s.answers } i c .ended).Inv host := by
  have hmem := List.mem_of_getElem? hc
  have hstage := h.stage c hmem k hk
  rw [hphase] at hstage
  refine h.change hc rfl (fun k _ => ⟨rfl, rfl, rfl, rfl⟩) ?_ (fun _ _ => rfl) (fun _ _ => rfl)
    (fun ask hask => Or.inl hask) ?_
  · intro k' hk'
    have hkey := (h.key k').release (p := .ended) hc rfl
    refine ⟨⟨hkey.owned, hkey.fresh, hkey.receipt, hkey.once, hkey.first, hkey.faithful⟩, trivial,
      ?_⟩
    intro j d _ hd hdk
    exact (h.stage d (List.mem_of_getElem? hd) k' hdk).frame rfl rfl rfl
  · intro answer hanswer
    rcases List.mem_cons.mp hanswer with rfl | hanswer
    · exact Or.inr ⟨by rw [h.token c hmem k hk]; exact hactive, hstage⟩
    · exact Or.inl hanswer

/-! ### The steps -/

theorem receiptKey_token {allowed : String → String → Bool} {tokenId toolName : String}
    {entry : CatalogEntry} {arguments : Json} {key : Option ReceiptKey}
    (h : receiptKey allowed tokenId toolName entry arguments = .ok key) :
    ∀ k, key = some k → k.tokenId = tokenId := by
  intro k hk
  subst hk
  unfold receiptKey at h
  split at h
  · cases hbind : bindContext allowed arguments entry.context [] with
    | error e =>
      rw [hbind] at h
      cases h
    | ok objectKey =>
      rw [hbind] at h
      cases h
  · cases hoperation : operationId arguments with
    | error e =>
      rw [hoperation] at h
      cases h
    | ok operation =>
      cases hbind : bindContext allowed arguments entry.context [] with
      | error e =>
        rw [hoperation, hbind] at h
        cases h
      | ok objectKey =>
        rw [hoperation, hbind] at h
        cases h
        rfl

/-- A call begins. -/
theorem Service.Inv.push {tokenId : String} {key : Option ReceiptKey} {arguments : Json}
    (h : s.Inv host) (htoken : ∀ k, key = some k → k.tokenId = tokenId) :
    Service.Inv host { s with calls := s.calls ++ [⟨tokenId, key, arguments, .authorizing⟩] } where
  key := by
    intro k
    obtain ⟨owner, howned⟩ := (h.key k).owned
    have hview : Call.view k ⟨tokenId, key, arguments, .authorizing⟩ = none := by
      unfold Call.view
      split <;> rfl
    refine (h.key k).frame ⟨owner, howned.push hview⟩ ?_ rfl rfl rfl rfl
    intro hnone d hd
    rcases List.mem_append.mp hd with hd | hd
    · exact hnone d hd
    · rw [List.mem_singleton.mp hd]
      exact hview
  token := by
    intro d hd k hk
    rcases List.mem_append.mp hd with hd | hd
    · exact h.token d hd k hk
    · obtain rfl := List.mem_singleton.mp hd
      exact htoken k hk
  stage := by
    intro d hd k hk
    rcases List.mem_append.mp hd with hd | hd
    · exact (h.stage d hd k hk).frame rfl rfl rfl
    · obtain rfl := List.mem_singleton.mp hd
      trivial
  conflict := h.conflict
  asked := h.asked
  answers := h.answers

/-- A crash leaves the receipts. -/
theorem Service.Inv.crash (h : s.Inv host) : Service.Inv host { s with calls := [] } where
  key := fun k => (h.key k).frame ⟨none, Owned.nil⟩ (fun _ => nofun) rfl rfl rfl rfl
  token := nofun
  stage := nofun
  conflict := h.conflict
  asked := h.asked
  answers := h.answers

theorem Service.Inv.setActive (h : s.Inv host) (inactive : List String) :
    Service.Inv host { s with inactive := inactive } where
  key := fun k => (h.key k).frame (h.key k).owned id rfl rfl rfl rfl
  token := h.token
  stage := fun c hc k hk => (h.stage c hc k hk).frame rfl rfl rfl
  conflict := h.conflict
  asked := h.asked
  answers := h.answers

theorem Service.Inv.stepCall {m : Move} (hsha : Function.Injective host.sha256) (h : s.Inv host)
    (hc : s.calls[i]? = some c)
    (hkept : ∀ j result conforms, m = .provided j result conforms →
      host.Faithful (checkedResult result conforms))
    (hs : s.stepCall host i c m = some s') : s'.Inv host := by
  unfold Service.stepCall at hs
  cases m with
  | authorized j ok =>
    dsimp only at hs
    split at hs
    · cases hs
      split
      · exact h.ended hc
      · cases hk : c.key with
        | none => exact h.keyless hc hk
        | some k => exact h.leave hc rfl fun _ _ => trivial
    · cases hs
  | reserve j ok =>
    dsimp only at hs
    split at hs
    · rename_i key hphase hk
      split at hs
      · cases hs
        exact h.reserve hsha hc hk
      · cases hs
        exact h.refused (p := .ended) hc hk rfl trivial (fun hne => absurd rfl hne)
          fun _ _ _ => Or.inr rfl
    · cases hs
  | check j =>
    dsimp only at hs
    split at hs
    · rename_i hphase
      split at hs
      · cases hs
        cases hk : c.key with
        | none => exact h.keyless hc hk
        | some k => exact h.invoke hc hk hphase
      · cases hs
        exact h.ended hc
    · rename_i result hphase
      split at hs
      · rename_i hactive
        cases hs
        cases hk : c.key with
        | none => exact h.keyless hc hk
        | some k => exact h.answer hc hk hphase hactive
      · cases hs
        exact h.ended hc
    · cases hs
  | provided j result conforms =>
    dsimp only at hs
    split at hs
    · rename_i hphase
      split at hs
      · rename_i k hk
        cases hs
        exact h.return hc hk hphase (hkept j result conforms rfl)
      · rename_i hk
        cases hs
        exact h.keyless hc hk
    · cases hs
  | complete j ok =>
    dsimp only at hs
    split at hs
    · rename_i result key hphase hk
      split at hs
      · cases hs
        exact h.complete hc hk hphase
      · cases hs
        exact h.ended hc
    · cases hs
  | drop j =>
    cases hs
    exact h.ended hc
  | call _ _ _ _ _ _ => cases hs
  | setActive _ _ => cases hs
  | crash => cases hs

/-- STEP: whatever is interleaved, dropped or cut off by a crash. -/
theorem Service.Inv.step {m : Move} (hsha : Function.Injective host.sha256) (h : s.Inv host)
    (hkept : s.kept host m) (hs : s.step host m = some s') : s'.Inv host := by
  cases m with
  | call tokenId toolName entry arguments allowed accepted =>
    simp only [Service.step] at hs
    split at hs
    · cases hs
      exact h
    · split at hs
      · cases hs
        exact h
      · rename_i key hkey
        cases hs
        exact h.push (receiptKey_token hkey)
  | authorized j _ | reserve j _ | check j | complete j _ | drop j =>
    obtain ⟨c, hc, hs⟩ := Option.bind_eq_some_iff.mp hs
    exact h.stepCall hsha hc (fun _ _ _ hm => by cases hm) hs
  | provided j result conforms =>
    obtain ⟨c, hc, hs⟩ := Option.bind_eq_some_iff.mp hs
    refine h.stepCall hsha hc ?_ hs
    intro j' result' conforms' hm
    cases hm
    exact hkept
  | setActive tokenId active =>
    cases hs
    exact h.setActive _
  | crash =>
    cases hs
    exact h.crash

/-- A result as `serde_json` prints it. -/
def printResult (result : ToolResult) : String :=
  "\x7b\"content\":" ++ (Json.arr result.content).toText ++
    (match result.structuredContent with
      | some value => ",\"structuredContent\":" ++ value.toText
      | none => "") ++ ",\"isError\":" ++ (Json.bool result.isError).toText ++ "\x7d"

def scoreResult (score : String) : ToolResult :=
  ⟨[], some (.obj [("score", .num score)]), false⟩

/-- A reader that knows one text, and reads it as `read`. -/
def oneText (printed read : ToolResult) : Host where
  sha256 := id
  print := fun result => some (printResult result)
  parse := fun text => if text = printResult printed then some read else none

theorem oneText_parse (printed read : ToolResult) :
    (oneText printed read).parse (printResult printed) = some read := if_pos rfl

/-- A call, and the same call again behind a crash. -/
def callTwice (result : ToolResult) : List Move :=
  let call := Move.call "owner" "gamer.core.submit" ⟨false, []⟩
    (.obj [("operation_id", .str "op-1")]) (fun _ _ => true) true
  [call, .authorized 0 true, .reserve 0 true, .check 0, .provided 0 (.ok result) true,
    .complete 0 true, .check 0, .crash, call, .authorized 0 true, .reserve 0 true, .check 0]

end Gamer.Mcp.Receipts
