import Mathlib
import Gamer.Lib.Served
import Gamer.Updater.Transfer

/-! What a transfer comes to, whatever was tried before it:

        Ok               ⇒  the file is there, as long as asked for and with the hash asked for
        an honest server ⇒  Ok at once, or what is there is thrown away; then Ok the next time

    The part of the file that is there is as long as the offset says throughout. It is only ever
    followed by what belongs after it, and if it was wrong itself the hash says so at the end. -/

namespace Gamer.Updater.Transfer
open Gamer.Lib Gamer.Lib.Prog Gamer.Updater.Files

/-- So much of the file is there. -/
def At (offset : Nat) (d : Disk) : Prop := ∃ content, d.dest = some content ∧ content.length = offset

/-- The file is what the call asks for. -/
structure Fetched (sha256 : Bytes → String) (c : Call) (d : Disk) : Prop where
  dest : ∃ content, d.dest = some content ∧ content.length = c.size ∧
    asciiLowercase (sha256 content) = asciiLowercase c.hash

theorem asciiLowercase_idem (s : String) :
    asciiLowercase (asciiLowercase s) = asciiLowercase s := by
  unfold asciiLowercase
  rw [String.toList_ofList, List.map_map]
  congr 1
  refine List.map_congr_left fun x _ => ?_
  exact Char.toLower_toLower_eq_toLower x

/-! ### What is there when it succeeds -/

section
variable {sha256 : Bytes → String} {c : Call}

/-- An offset other than 0 is the length of the file. -/
theorem resumeOffset_at {receipt : Option Receipt} {d : Disk}
    (h : resumeOffset c receipt (d.dest.map List.length) ≠ 0) :
    At (resumeOffset c receipt (d.dest.map List.length)) d := by
  unfold resumeOffset at h ⊢
  cases hd : d.dest with
  | none => cases receipt <;> simp [hd] at h
  | some content =>
    cases receipt with
    | none => simp at h
    | some r =>
      rw [hd] at h
      simp only [Option.map_some] at h ⊢
      split at h
      · next hle =>
        rw [if_pos hle]
        exact ⟨content, hd, rfl⟩
      · exact absurd rfl h

theorem resumeOffset_le (receipt : Option Receipt) (length : Option Nat) :
    resumeOffset c receipt length ≤ c.size := by
  unfold resumeOffset
  split
  · split
    · next hle => exact hle.2.2.2
    · exact Nat.zero_le _
  · exact Nat.zero_le _

/-- A response is taken from the start or from the offset. -/
theorem acceptResponse_offset {receipt : Option Receipt} {offset o : Nat} {r : Response}
    (h : acceptResponse c receipt offset r = .ok o) : o = 0 ∨ o = offset := by
  have hlength : ∀ {k : Nat}, checkLength c k r = .ok o → o = k := by
    intro k hk
    unfold checkLength at hk
    split at hk
    · exact (Except.ok.inj hk).symm
    · split at hk
      · cases hk
      · split at hk
        · cases hk
        · exact (Except.ok.inj hk).symm
  unfold acceptResponse at h
  split at h
  · cases h
  · next k hbody =>
    rw [hlength h]
    unfold bodyOffset at hbody
    split at hbody
    · exact .inl (Except.ok.inj hbody).symm
    · split at hbody
      · split at hbody
        · cases hbody
        · split at hbody
          · cases hbody
          · exact .inr (Except.ok.inj hbody).symm
      · cases hbody

theorem opened_at {offset : Nat} {d : Disk} (h : offset ≠ 0 → At offset d) :
    At offset { d with dest := if offset = 0 then some [] else some (d.dest.getD []) } := by
  by_cases hzero : offset = 0
  · subst hzero
    exact ⟨[], rfl, rfl⟩
  · obtain ⟨content, hdest, hlength⟩ := h hzero
    refine ⟨content, ?_, hlength⟩
    simp [hzero, hdest]

theorem openDest_rule (offset : Nat) :
    Triple (fun d => offset ≠ 0 → At offset d) (openDest offset)
      (either (fun _ _ => True) fun _ => At offset) fun _ => True := by
  refine .effect (fun _ _ => trivial) fun e d hd => ?_
  cases e.ok with
  | false => exact trivial
  | true => exact opened_at hd

/-- STEP: what is read is written behind what is there. -/
theorem transfer_rule (offset : Nat) (chunk : Bytes) :
    Triple (At offset) (transfer c offset (.ok chunk))
      (either (fun _ _ => True) fun _ => At (offset + chunk.length)) fun _ => True := by
  refine .effect (fun _ _ => trivial) fun e d hd => ?_
  obtain ⟨content, hdest, hlength⟩ := hd
  by_cases hpaused : e.paused
  · simp only [hpaused, if_true]
    exact trivial
  by_cases hlate : e.late
  · simp only [hpaused, hlate, if_true]
    exact trivial
  simp only [hpaused, hlate, if_false, Bool.false_eq_true]
  split
  · next hnil =>
    subst hnil
    exact ⟨content, hdest, hlength⟩
  · split
    · exact trivial
    · split
      · refine ⟨content ++ chunk, by simp [Disk.append, hdest], ?_⟩
        rw [List.length_append, hlength]
      · exact trivial

theorem transfer_error (offset : Nat) (text : String) :
    Triple (At offset) (transfer c offset (.error text))
      (either (fun _ _ => True) fun _ _ => False) fun _ => True := by
  refine .effect (fun _ _ => trivial) fun e d _ => ?_
  by_cases hpaused : e.paused
  · simp only [hpaused, if_true]
    exact trivial
  by_cases hlate : e.late
  · simp only [hpaused, hlate, if_true]
    exact trivial
  simp only [hpaused, hlate, if_false, Bool.false_eq_true]
  exact trivial

theorem bodyEnd_rule (offset : Nat) :
    Triple (At offset) (bodyEnd c offset) (either (fun _ _ => True) fun _ => At c.size)
      fun _ => True := by
  unfold bodyEnd
  split
  · next heq => exact .give fun d hd => heq ▸ hd
  · exact .give fun _ _ => trivial

/-- RUN: the loop ends with an error, or with as much as there should be. -/
theorem pump_rule (body : List (Except String Bytes)) (offset : Nat) :
    Triple (At offset) (pump c offset body) (either (fun _ _ => True) fun _ => At c.size)
      fun _ => True := by
  induction body generalizing offset with
  | nil => exact (transfer_rule offset []).andThen (fun _ _ _ => trivial) fun _ => bodyEnd_rule _
  | cons read rest ih =>
    cases read with
    | error text =>
      exact (transfer_error offset text).andThen (fun _ _ _ => trivial) fun _ =>
        (bodyEnd_rule offset).pre fun _ hd => hd.elim
    | ok chunk =>
      refine (transfer_rule offset chunk).andThen (fun _ _ _ => trivial) fun _ => ?_
      split
      · next hnil =>
        subst hnil
        exact bodyEnd_rule offset
      · exact ih _

theorem succeed_rule :
    Triple (Fetched sha256 c) (succeed c)
      (either (fun _ _ => True) fun n d => n = c.size ∧ Fetched sha256 c d) fun _ => True := by
  have hremove : Triple (Fetched sha256 c) removeReceipt (fun _ => Fetched sha256 c)
      fun _ => True := by
    refine .effect (fun _ _ => trivial) fun e d hd => ?_
    cases e.ok
    · exact hd
    · exact ⟨hd.dest⟩
  exact hremove.bind fun _ => .give fun d hd => ⟨rfl, hd⟩

theorem finish_rule (result : Except DownloadError Unit) :
    Triple (either (fun _ _ => True) (fun _ => At c.size) result) (finish sha256 c result)
      (either (fun _ _ => True) fun n d => n = c.size ∧ Fetched sha256 c d) fun _ => True := by
  have hsync : Triple (either (fun _ _ => True) (fun _ => At c.size) result) syncDest
      (either (fun _ _ => True) fun _ => either (fun _ _ => True) (fun _ => At c.size) result)
      fun _ => True := by
    refine .effect (fun _ _ => trivial) fun e d hd => ?_
    cases e.ok
    · exact trivial
    · exact hd
  have hdiscard : ∀ x, Triple (fun _ => True) (discard x)
      (either (fun _ _ => True) fun n d => n = c.size ∧ Fetched sha256 c d) fun _ => True :=
    fun x => Triple.any.bind fun _ => Triple.any.bind fun _ => .give fun _ _ => trivial
  refine hsync.andThen (fun _ _ _ => trivial) fun _ => ?_
  cases result with
  | error x =>
    dsimp only
    split
    · exact hdiscard x
    · exact .give fun _ _ => trivial
  | ok u =>
    have hdigest : Triple (At c.size) (digestDest sha256)
        (either (fun _ _ => True) fun actual d => ∃ content, d.dest = some content ∧
          content.length = c.size ∧ sha256 content = actual) fun _ => True := by
      refine .effect (fun _ _ => trivial) fun e d hd => ?_
      obtain ⟨content, hdest, hlength⟩ := hd
      cases e.ok with
      | false => exact trivial
      | true =>
        rw [hdest]
        exact ⟨content, hdest, hlength, rfl⟩
    refine hdigest.andThen (fun _ _ _ => trivial) fun actual => ?_
    split
    · exact (hdiscard _).pre fun _ _ => trivial
    · next hsame =>
      rw [not_not] at hsame
      refine succeed_rule.pre fun d ⟨content, hdest, hlength, hsha⟩ => ?_
      exact ⟨content, hdest, hlength, by rw [hsha, hsame]⟩

theorem fetch_rule (receipt : Option Receipt) (offset : Nat) :
    Triple (fun d => offset ≠ 0 → At offset d) (fetch sha256 c receipt offset)
      (either (fun _ _ => True) fun n d => n = c.size ∧ Fetched sha256 c d) fun _ => True := by
  have hsend : Triple (fun d => offset ≠ 0 → At offset d) (sendRequest (request receipt offset))
      (either (fun _ _ => True) fun _ d => offset ≠ 0 → At offset d) fun _ => True := by
    refine .effect (fun _ _ => trivial) fun e d hd => ?_
    rcases e.respond (request receipt offset) with (code | text) | r
    · exact trivial
    · exact trivial
    · exact hd
  refine hsend.andThen (fun _ _ _ => trivial) fun r => ?_
  split
  · exact .give fun _ _ => trivial
  · next o haccept =>
    have hreceipt : Triple (At o) (writeReceipt ⟨c.url, c.hash, c.size, strongTag r.etag⟩)
        (either (fun _ _ => True) fun _ => At o) fun _ => True := by
      refine .effect (fun _ _ => trivial) fun e d hd => ?_
      cases e.ok
      · exact trivial
      · exact hd
    refine ((openDest_rule o).pre fun d hd hzero => ?_).andThen (fun _ _ _ => trivial) fun _ =>
      hreceipt.andThen (fun _ _ _ => trivial) fun _ => (pump_rule r.body o).bind finish_rule
    rcases acceptResponse_offset haccept with rfl | rfl
    · exact absurd rfl hzero
    · exact hd hzero

/-- RUN: a call that succeeds leaves the file it asked for. -/
theorem download_rule :
    Triple (fun _ => True) (download sha256 c)
      (either (fun _ _ => True) fun n d => n = c.size ∧ Fetched sha256 c d) fun _ => True := by
  unfold download
  split
  · exact .give fun _ _ => trivial
  have hpaused : Triple (fun _ => True) checkPaused
      (either (fun _ _ => True) fun _ _ => True) fun _ => True :=
    Triple.any.post fun r _ _ => by cases r <;> trivial
  have hlength : Triple (fun _ => True) destLength
      (fun length d => ∀ receipt, resumeOffset c receipt length ≠ 0 →
        At (resumeOffset c receipt length) d) fun _ => True := by
    refine .effect (fun _ _ => trivial) fun e d _ receipt => ?_
    cases e.ok with
    | false => cases receipt <;> simp [resumeOffset]
    | true => exact resumeOffset_at
  refine hpaused.andThen (fun _ _ _ => trivial) fun _ => Triple.any.bind fun receipt =>
    hlength.bind fun length => ?_
  split
  · have hverify : Triple (fun _ => True) (verifyDest sha256 c)
        (fun complete d => complete → Fetched sha256 c d) fun _ => True := by
      refine .effect (fun _ _ => trivial) fun e d _ => ?_
      cases hdest : d.dest with
      | none => simp
      | some content =>
        intro hok
        simp only [Bool.and_eq_true, decide_eq_true_eq] at hok
        exact ⟨content, hdest, hok.1.2, by rw [hok.2, asciiLowercase_idem]⟩
    refine (hverify.pre fun _ _ => trivial).bind fun complete => ?_
    split
    · next hcomplete => exact (succeed_rule.pre fun d hd => hd hcomplete)
    · exact (fetch_rule receipt 0).pre fun _ _ hzero => absurd rfl hzero
  · exact (fetch_rule receipt _).pre fun d hd => hd receipt

end

/-! ### An honest server -/

/-- The reads of a body that brings these bytes, and then no more. -/
def Brings (body : List (Except String Bytes)) (bytes : Bytes) : Prop :=
  ∃ chunks : List Bytes, body = chunks.map .ok ∧ (∀ chunk ∈ chunks, chunk ≠ []) ∧
    chunks.flatten = bytes

/-- A response with these bytes as its body. A `Content-Length` that is a number is theirs. -/
structure Carries (r : Response) (bytes : Bytes) : Prop where
  length : ∀ n, r.contentLength.bind parseU64 = some n → n = bytes.length
  body : Brings r.body bytes

/-- What a server that has the artifact may respond: all of it, or what is missing, if the tag that
    was sent along is still the artifact's. -/
inductive Serving (artifact : Bytes) (req : Request) (r : Response) : Prop where
  | whole : r.status = 200 → Carries r artifact → Serving artifact req r
  | part {k : Nat} : req.range = some k → r.status = 206 →
      r.contentRange = some (contentRange k artifact.length) →
      (∀ sent current, req.ifRange = some sent → r.etag = some current → sent = current) →
      Carries r (artifact.drop k) → Serving artifact req r

/-- Nothing fails, nobody pauses, there is time, and the server has the artifact. -/
structure Uninterrupted (artifact : Bytes) (e : Answer) : Prop where
  ok : e.ok
  paused : e.paused = false
  late : e.late = false
  honest : ∀ req, ∃ r, e.respond req = .ok r ∧ Serving artifact req r

/-- The artifact is what the call asks for. -/
structure Asked (sha256 : Bytes → String) (c : Call) (artifact : Bytes) : Prop where
  length : artifact.length = c.size
  digest : asciiLowercase (sha256 artifact) = asciiLowercase c.hash

section
variable {sha256 : Bytes → String} {c : Call} {artifact : Bytes}

/-- An honest response is taken, and what follows the offset is its body. -/
theorem acceptResponse_serving (hasked : Asked sha256 c artifact) {receipt : Option Receipt}
    {offset : Nat} {r : Response} (h : Serving artifact (request receipt offset) r) :
    ∃ o, acceptResponse c receipt offset r = .ok o ∧ (o = 0 ∨ o = offset) ∧
      Brings r.body (artifact.drop o) := by
  have hlength : ∀ o, Carries r (artifact.drop o) → checkLength c o r = .ok o := by
    intro o hcarries
    unfold checkLength
    split
    · rfl
    · next n hn =>
      have heq := hcarries.length n hn
      rw [List.length_drop, hasked.length] at heq
      rw [if_neg (by omega), if_neg (by omega)]
  cases h with
  | whole hstatus hcarries =>
    refine ⟨0, ?_, .inl rfl, hcarries.body⟩
    rw [acceptResponse, bodyOffset, if_pos hstatus]
    exact hlength 0 hcarries
  | @part k hrange hstatus hcontent htag hcarries =>
    have hpos : 0 < offset := by
      by_contra hzero
      simp [request, Nat.eq_zero_of_not_pos hzero] at hrange
    simp only [request, hpos, if_true, Option.some.injEq] at hrange htag
    subst hrange
    have hsame : tagChanged receipt r = false := by
      unfold tagChanged
      split
      · next previous current hsent hcurrent =>
        simpa using htag previous current hsent hcurrent
      · rfl
    refine ⟨offset, ?_, .inr rfl, hcarries.body⟩
    rw [acceptResponse, bodyOffset, if_neg (by simp [hstatus]), if_pos ⟨hstatus, hpos⟩,
      if_neg (by simp [hcontent, hasked.length]), hsame]
    exact hlength offset hcarries

/-- STEP: a chunk is written, if it is not too much. -/
theorem transfer_serves {p chunk : Bytes} (hle : chunk.length ≤ c.size - p.length) :
    Serves (Uninterrupted artifact) 1 (fun d => d.dest = some p)
      (transfer c p.length (.ok chunk)) fun r d =>
        ∃ a : Unit, r = .ok a ∧ d.dest = some (p ++ chunk) := by
  refine .effect fun e d hgood hd => ?_
  simp only [hgood.paused, hgood.late, hgood.ok, Bool.false_eq_true, if_false, if_true]
  by_cases hnil : chunk = []
  · subst hnil
    exact ⟨(), rfl, by rw [List.append_nil]; exact hd⟩
  · rw [if_neg hnil, if_neg (Nat.not_lt.mpr hle)]
    exact ⟨(), rfl, by rw [Disk.append, hd]; rfl⟩

/-- RUN: the loop writes a body of the right length to its end. -/
theorem pump_serves {chunks : List Bytes} {p : Bytes} (hchunks : ∀ chunk ∈ chunks, chunk ≠ [])
    (hlength : p.length + chunks.flatten.length = c.size) :
    Serves (Uninterrupted artifact) (chunks.length + 1) (fun d => d.dest = some p)
      (pump c p.length (chunks.map .ok)) fun r d =>
        r = .ok () ∧ d.dest = some (p ++ chunks.flatten) := by
  induction chunks generalizing p with
  | nil =>
    rw [List.flatten_nil, List.length_nil, Nat.add_zero] at hlength
    refine (transfer_serves (Nat.zero_le _)).andThen (m := 0) fun _ => ?_
    rw [bodyEnd, if_pos hlength]
    exact .pure fun d hd => ⟨rfl, hd⟩
  | cons chunk rest ih =>
    rw [List.flatten_cons, List.length_append] at hlength
    have hne : chunk ≠ [] := hchunks chunk List.mem_cons_self
    refine ((transfer_serves (by omega)).andThen (m := rest.length + 1) fun _ => ?_).mono
      (by rw [List.length_cons]; omega)
    rw [if_neg hne, ← List.length_append, List.flatten_cons, ← List.append_assoc]
    exact ih (fun x hx => hchunks x (List.mem_cons_of_mem _ hx))
      (by rw [List.length_append]; omega)

/-- There are no more chunks than bytes. -/
theorem length_le_flatten {chunks : List Bytes} (hchunks : ∀ chunk ∈ chunks, chunk ≠ []) :
    chunks.length ≤ chunks.flatten.length := by
  induction chunks with
  | nil => exact Nat.le_refl 0
  | cons chunk rest ih =>
    have hpos := List.length_pos_iff.mpr (hchunks chunk List.mem_cons_self)
    have hrest := ih fun x hx => hchunks x (List.mem_cons_of_mem _ hx)
    rw [List.flatten_cons, List.length_append, List.length_cons]
    omega

/-- The call succeeds, or everything that was there is gone. -/
def Settles (c : Call) (r : Except DownloadError Nat) (d : Disk) : Prop :=
  r = .ok c.size ∨ d.receipt = none

theorem removeReceipt_serves {P : Disk → Prop} :
    Serves (Uninterrupted artifact) 1 P removeReceipt fun _ d => d.receipt = none := by
  refine .effect fun e d hgood _ => ?_
  simp only [hgood.ok, if_true]

theorem succeed_serves {P : Disk → Prop} :
    Serves (Uninterrupted artifact) 1 P (succeed c) fun r _ => r = .ok c.size :=
  removeReceipt_serves.bind (m := 0) fun _ => .pure fun _ _ => rfl

theorem discard_serves {P : Disk → Prop} (x : DownloadError) :
    Serves (Uninterrupted artifact) 2 P (discard x) fun r d => r = .error x ∧ d.receipt = none := by
  have hremove : Serves (Uninterrupted artifact) 1 P removeDest fun _ _ => True :=
    .effect fun _ _ _ _ => trivial
  exact hremove.bind (m := 1) fun _ => removeReceipt_serves.bind (m := 0) fun _ =>
    .pure fun d hd => ⟨rfl, hd⟩

/-- STEP: the digest decides, and a file that is wrong is thrown away. -/
theorem finish_serves {content : Bytes} :
    Serves (Uninterrupted artifact) 4 (fun d => d.dest = some content)
      (finish sha256 c (.ok ())) fun r d => Settles c r d ∧
        (asciiLowercase (sha256 content) = asciiLowercase c.hash → r = .ok c.size) := by
  have hsync : Serves (Uninterrupted artifact) 1 (fun d => d.dest = some content) syncDest
      fun r d => ∃ a : Unit, r = .ok a ∧ d.dest = some content := by
    refine .effect fun e d hgood hd => ?_
    rw [hgood.ok]
    exact ⟨(), rfl, hd⟩
  have hdigest : Serves (Uninterrupted artifact) 1 (fun d => d.dest = some content)
      (digestDest sha256) fun r _ => ∃ actual, r = .ok actual ∧ (True ∧ actual = sha256 content) := by
    refine .effect fun e d hgood hd => ?_
    rw [hgood.ok, hd]
    exact ⟨_, rfl, trivial, rfl⟩
  refine hsync.andThen (m := 3) fun _ => hdigest.andThen (m := 2) fun actual =>
    .fact fun hactual => ?_
  subst hactual
  split
  · next hother =>
    exact (discard_serves _).conseq (fun _ hd => hd) fun r d hr =>
      ⟨.inr hr.2, fun hsame => absurd hsame hother⟩
  · exact (succeed_serves.mono (by decide)).conseq (fun _ hd => hd) fun r d hr =>
      ⟨.inl hr, fun _ => hr⟩

/-- RUN: what is asked for from the start arrives, and what is asked for from an offset settles. -/
theorem fetch_serves (hasked : Asked sha256 c artifact) {receipt : Option Receipt}
    {offset : Nat} (hle : offset ≤ c.size) :
    Serves (Uninterrupted artifact) (c.size + 8) (fun d => offset ≠ 0 → At offset d)
      (fetch sha256 c receipt offset) fun r d =>
        Settles c r d ∧ (offset = 0 → r = .ok c.size) := by
  have hsend : Serves (Uninterrupted artifact) 1 (fun d => offset ≠ 0 → At offset d)
      (sendRequest (request receipt offset)) fun r d => ∃ response, r = .ok response ∧
        ((offset ≠ 0 → At offset d) ∧ Serving artifact (request receipt offset) response) := by
    refine .effect fun e d hgood hd => ?_
    obtain ⟨response, hrespond, hserving⟩ := hgood.honest (request receipt offset)
    rw [hrespond]
    exact ⟨response, rfl, hd, hserving⟩
  refine (hsend.andThen (m := c.size + 7) fun response => .fact fun hserving => ?_).mono (by omega)
  obtain ⟨o, haccept, ho, chunks, hbody, hchunks, hbytes⟩ := acceptResponse_serving hasked hserving
  rw [haccept, hbody]
  have hopen : Serves (Uninterrupted artifact) 1 (fun d => offset ≠ 0 → At offset d)
      (openDest o) fun r d => ∃ a : Unit, r = .ok a ∧ At o d := by
    refine .effect fun e d hgood hd => ?_
    rw [hgood.ok]
    refine ⟨(), rfl, opened_at fun hzero => ?_⟩
    rcases ho with rfl | rfl
    · exact absurd rfl hzero
    · exact hd hzero
  have hreceipt : Serves (Uninterrupted artifact) 1 (At o)
      (writeReceipt ⟨c.url, c.hash, c.size, strongTag response.etag⟩) fun r d =>
        ∃ a : Unit, r = .ok a ∧ At o d := by
    refine .effect fun e d hgood hd => ?_
    rw [hgood.ok]
    exact ⟨(), rfl, hd⟩
  have hbytesLength : o + chunks.flatten.length = c.size := by
    have := hasked.length
    rw [hbytes, List.length_drop]
    rcases ho with rfl | rfl <;> omega
  have hcount := length_le_flatten hchunks
  refine (hopen.andThen (m := c.size + 6) fun _ => ((hreceipt.andThen (m := c.size + 5) fun _ =>
    .each fun d hd => ?_).mono (by omega))).mono (by omega)
  obtain ⟨p, hdest, rfl⟩ := hd
  have hpump : Serves (Uninterrupted artifact) (c.size + 1) (fun t => t = d)
      (pump c p.length (chunks.map .ok)) fun r t =>
        t.dest = some (p ++ chunks.flatten) ∧ r = .ok () :=
    ((pump_serves hchunks hbytesLength).mono (by omega)).conseq (fun t ht => ht ▸ hdest)
      fun r t hr => ⟨hr.2, hr.1⟩
  refine hpump.bind (m := 4) fun r => .fact fun hr => ?_
  subst hr
  refine finish_serves.conseq (fun t ht => ht) fun r t hr => ⟨hr.1, fun hzero => hr.2 ?_⟩
  -- From the start there is nothing before the artifact.
  have hnil : p = [] := List.length_eq_zero_iff.mp (by rcases ho with ho | ho <;> omega)
  rw [hnil, List.nil_append, hbytes, hnil, List.length_nil, List.drop_zero]
  exact hasked.digest


/-- RUN: a call that is not interrupted settles, and succeeds where there was no receipt. -/
theorem download_serves (hasked : Asked sha256 c artifact) (hurl : isHttp c.url) (anew : Prop) :
    Serves (Uninterrupted artifact) (c.size + 12) (fun d => anew → d.receipt = none)
      (download sha256 c) fun r d => Settles c r d ∧ (anew → r = .ok c.size) := by
  have hpaused : Serves (Uninterrupted artifact) 1 (fun d => anew → d.receipt = none)
      checkPaused fun r d => ∃ a : Unit, r = .ok a ∧ (anew → d.receipt = none) := by
    refine .effect fun e d hgood hd => ?_
    rw [hgood.paused]
    exact ⟨(), rfl, hd⟩
  have hreceipt : Serves (Uninterrupted artifact) 1 (fun d => anew → d.receipt = none)
      readReceipt fun receipt _ => True ∧ (anew → receipt = none) := by
    refine .effect fun e d hgood hd => ⟨trivial, fun hanew => ?_⟩
    rw [hgood.ok, hd hanew]
    rfl
  have hlength : Serves (Uninterrupted artifact) 1 (fun _ => True) destLength fun length d =>
      ∀ receipt, resumeOffset c receipt length ≠ 0 → At (resumeOffset c receipt length) d := by
    refine .effect fun e d hgood _ receipt => ?_
    rw [hgood.ok]
    exact resumeOffset_at
  unfold download
  rw [hurl]
  refine (hpaused.andThen (m := c.size + 11) fun _ => (hreceipt.bind (m := c.size + 10)
    fun receipt => .fact fun hanew => (hlength.bind (m := c.size + 9) fun length => ?_).mono
      (by omega)).mono (by omega)).mono (by omega)
  have hfrom : anew → resumeOffset c receipt length = 0 := fun h => by rw [hanew h]; rfl
  split
  · have hverify : Serves (Uninterrupted artifact) 1 (fun _ => True) (verifyDest sha256 c)
        fun _ _ => True := .effect fun _ _ _ _ => trivial
    refine ((hverify.conseq (fun _ _ => trivial) fun _ _ h => h).bind (m := c.size + 8)
      fun complete => ?_).mono (by omega)
    split
    · exact (succeed_serves.mono (by omega)).conseq (fun _ h => h) fun r d hr =>
        ⟨.inl hr, fun _ => hr⟩
    · exact (fetch_serves hasked (Nat.zero_le _)).conseq (fun _ _ hzero => absurd rfl hzero)
        fun r d hr => ⟨hr.1, fun _ => hr.2 rfl⟩
  · exact ((fetch_serves hasked (resumeOffset_le receipt length)).mono (by omega)).conseq
      (fun d hd => hd receipt) fun r d hr => ⟨hr.1, fun h => hr.2 (hfrom h)⟩

end

/-! ### Every sequence of calls -/

/-- A call, and what the environment answers until it returns or is cut off. -/
structure Attempt where
  call : Call
  tape : List Answer

section
variable (sha256 : Bytes → String)

/-- The files after these attempts. -/
def after (past : List Attempt) (d : Disk) : Disk :=
  past.foldl (fun d t => (download sha256 t.call t.tape d).state) d

/-- SAFETY: whatever was tried before, wherever it was cut off and whatever servers answered, a call
    that returns Ok leaves the file it asked for, and of two calls that are not interrupted, with a
    server that has the artifact, one returns Ok. -/
theorem download_resumes (past : List Attempt) (start : Disk) :
    (∀ c tape n d rest, download sha256 c tape (after sha256 past start) = .done (.ok n) d rest →
      n = c.size ∧ Fetched sha256 c d) ∧
    ∀ c artifact, isHttp c.url → Asked sha256 c artifact →
      ∀ first second : List Answer, c.size + 12 ≤ first.length → c.size + 12 ≤ second.length →
      (∀ e ∈ first, Uninterrupted artifact e) → (∀ e ∈ second, Uninterrupted artifact e) →
      (download sha256 c first (after sha256 past start)).succeeded ∨
      (download sha256 c second (after sha256 (past ++ [⟨c, first⟩]) start)).succeeded := by
  refine ⟨fun c tape n d rest hrun => ?_, fun c artifact hurl hasked first second hfirst hsecond
    hgood hgood' => ?_⟩
  · have hrule : Triple (fun _ => True) (download sha256 c)
        (either (fun _ _ => True) fun n d => n = c.size ∧ Fetched sha256 c d) fun _ => True :=
      download_rule
    have hend := hrule tape (after sha256 past start) trivial
    rw [hrun] at hend
    exact hend
  · obtain ⟨r, d, rest, hrun, ⟨hsettles, -⟩, -, -⟩ :=
      (download_serves hasked hurl False).run first (after sha256 past start) False.elim hgood hfirst
    rcases hsettles with rfl | hnone
    · left
      rw [hrun]
      rfl
    · right
      have hafter : after sha256 (past ++ [⟨c, first⟩]) start = d := by
        rw [after, List.foldl_append]
        show (download sha256 c first (after sha256 past start)).state = d
        rw [hrun]
        rfl
      obtain ⟨r', d', rest', hrun', ⟨-, hok⟩, -, -⟩ :=
        (download_serves hasked hurl True).run second d (fun _ => hnone) hgood' hsecond
      rw [hafter, hrun', hok trivial]
      rfl

end

/-! ### A wrong beginning -/

def sampleDigest (content : Bytes) : String := if content = [1, 2, 3] then "ab" else "cd"

def sampleCall : Call := ⟨"https://a/b", "AB", 3⟩

/-- Another artifact, of which one byte arrives. -/
def sampleStray : Attempt where
  call := sampleCall
  tape := List.replicate 8 { respond := fun _ => .ok ⟨200, none, some "\"t\"", none, [.ok [9]]⟩ }

/-- A server with support for ranges. -/
def sampleServer (req : Request) : Response :=
  match req.range with
  | some 1 => ⟨206, some (contentRange 1 3), some "\"t\"", some "2", [.ok [2], .ok [3]]⟩
  | _ => ⟨200, none, some "\"t\"", some "3", [.ok [1, 2, 3]]⟩

/-- As above, as far as a tag that was sent along is its own. -/
def sampleAnswer : Answer where
  respond req := .ok (sampleServer (if req.ifRange = some "\"t\"" then req else ⟨none, none⟩))

theorem sampleAnswer_uninterrupted : Uninterrupted [1, 2, 3] sampleAnswer := by
  refine ⟨rfl, rfl, rfl, fun req => ⟨_, rfl, ?_⟩⟩
  have hwhole : Carries ⟨200, none, some "\"t\"", some "3", [.ok [1, 2, 3]]⟩ [1, 2, 3] :=
    ⟨fun n hn => (Option.some.inj hn).symm, [[1, 2, 3]], rfl, by decide, rfl⟩
  split
  · next htag =>
    unfold sampleServer
    split
    · next hrange =>
      refine .part hrange rfl rfl (fun sent current hsent hcurrent => ?_)
        ⟨fun n hn => (Option.some.inj hn).symm, [[2], [3]], rfl, by decide, rfl⟩
      rw [htag] at hsent
      rw [← Option.some.inj hsent, ← Option.some.inj hcurrent]
    · exact .whole rfl hwhole
  · exact .whole rfl hwhole

theorem download_resumes_sample :
    (download sampleDigest sampleCall (List.replicate 15 sampleAnswer)
      (after sampleDigest [sampleStray] ⟨none, none⟩)).succeeded ∨
    (download sampleDigest sampleCall (List.replicate 15 sampleAnswer)
      (after sampleDigest [sampleStray, ⟨sampleCall, List.replicate 15 sampleAnswer⟩]
        ⟨none, none⟩)).succeeded :=
  (download_resumes sampleDigest [sampleStray] ⟨none, none⟩).2 sampleCall [1, 2, 3] (by decide)
    ⟨rfl, by decide⟩ _ _ (by decide) (by decide)
    (fun _ he => List.eq_of_mem_replicate he ▸ sampleAnswer_uninterrupted)
    fun _ he => List.eq_of_mem_replicate he ▸ sampleAnswer_uninterrupted

/-- The first of the two calls goes on from the wrong byte, and fails. -/
example : (download sampleDigest sampleCall (List.replicate 15 sampleAnswer)
    (after sampleDigest [sampleStray] ⟨none, none⟩)).succeeded = false := by
  decide +kernel

end Gamer.Updater.Transfer
