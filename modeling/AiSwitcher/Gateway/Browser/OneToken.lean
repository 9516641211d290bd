/-
This file proves when a pairing yields at most one token. A poll is given a token only if it has the
secret of the pairing and the pairing was approved; this holds in every run.

An approval writes the whole pairing back as it has read it. When two approvals of a
pairing meet, a poll may claim it between their writes, and the second write puts it back with its
approval, so that the next poll gets another token. Likewise the name of a binding is
checked before the binding is put, and the expiry before the pairing is claimed. In runs in
which no statement comes too late in one of these ways, a code yields one token at most, before
it expires, and no two pairings have active bindings of one name.
-/

import Mathlib.Data.List.Nodup
import AiSwitcher.Gateway.Browser.Pairing

namespace AiSwitcher.Gateway.Browser

open JavaScript PairingRun

variable {runtime : PairingRuntime} {run : PairingRun} {requests : List PairingRequest}

/-! ### Statements on the tables -/

/-- A pairing in the store was there before, or it was put. -/
theorem getPairing_write {store : BrowserStore} {write : BrowserWrite} {code : String}
    {pairing : BrowserPairing} (isThere : (store.write write).getPairing code = some pairing) :
    store.getPairing code = some pairing ∨ (write = .putPairing pairing ∧ pairing.code = code) := by
  have isThere : (write.pairings store.pairings).get code = some pairing := isThere
  cases write with
  | putPairing put =>
    rw [BrowserWrite.pairings, Members.get_set] at isThere
    split at isThere
    next same =>
      obtain rfl := Option.some.inj isThere
      exact .inr ⟨rfl, same.symm⟩
    next => exact .inl isThere
  | deletePairing deleted =>
    rw [BrowserWrite.pairings, Members.get_delete] at isThere
    split at isThere
    · cases isThere
    · exact .inl isThere
  | deleteExpiredPairings now =>
    rw [BrowserWrite.pairings, Members.get_filter_keys store.pairings
      fun key => (store.pairings.get key).any fun pairing => now < pairing.expiresAt] at isThere
    split at isThere
    · exact .inl isThere
    · cases isThere
  | _ => exact .inl isThere

theorem getPairing_deletePairing (store : BrowserStore) (code : String) :
    (store.write (.deletePairing code)).getPairing code = none :=
  (Members.get_delete _ _ _).trans (if_pos rfl)

/-- The binding under a name that a statement does not write. -/
theorem getBrowserBinding_write (store : BrowserStore) {write : BrowserWrite} {name : String}
    (notPut : ∀ binding, write = .putBrowserBinding binding → binding.name ≠ name)
    (notTouched : ∀ touched at_, write = .touchBrowserBinding touched at_ → touched ≠ name)
    (notRevoked : write ≠ .revokeBrowserBinding name) :
    (store.write write).getBrowserBinding name = store.getBrowserBinding name := by
  have changed {other : String} (different : other ≠ name)
      (change : BrowserBinding → BrowserBinding) :
      (BrowserWrite.changeBinding store.bindings other change).get name = store.bindings.get name := by
    unfold BrowserWrite.changeBinding
    split
    · rw [Members.get_set, if_neg (Ne.symm different)]
    · rfl
  cases write with
  | putBrowserBinding binding =>
    exact (Members.get_set _ _ _ _).trans (if_neg (Ne.symm (notPut binding rfl)))
  | touchBrowserBinding touched at_ => exact changed (notTouched touched at_ rfl) _
  | revokeBrowserBinding other => exact changed (fun same => notRevoked (same ▸ rfl)) _
  | _ => rfl

/-! ### Answers stay -/

/-- What is done stays among the requests. -/
def Grows (before after : List PairingRequest) : Prop :=
  ∀ request ∈ before, request.isDone = true → request ∈ after

theorem next_of_isDone {store : BrowserStore} {now : Int} {request : PairingRequest}
    (done : request.isDone = true) : request.next runtime store now = request := by
  cases request with
  | pair step => cases step <;> first | rfl | cases done
  | approve step => cases step <;> first | rfl | cases done
  | poll step => cases step <;> first | rfl | cases done
  | revoke step => cases done
  | failed => cases done

theorem mem_set_of_ne {index : Nat} {request kept : PairingRequest} {after : PairingRequest}
    (isRequest : requests[index]? = some request) (member : kept ∈ requests)
    (other : kept = request → after = kept) : kept ∈ requests.set index after := by
  obtain ⟨place, less, rfl⟩ := List.getElem_of_mem member
  by_cases same : place = index
  · subst same
    rw [other (Option.some.inj ((List.getElem?_eq_getElem less).symm.trans isRequest))]
    exact List.mem_set less _
  · refine List.mem_of_getElem? (i := place) ?_
    rw [List.getElem?_set_ne (Ne.symm same), List.getElem?_eq_getElem less]

theorem grows_step (run : PairingRun) (event : PairingEvent) :
    Grows run.requests (run.step runtime event).requests := by
  intro request member done
  have received (request' : PairingRequest) : request ∈ (run.receive request').requests :=
    List.mem_append_left _ member
  cases event with
  | pair label secret code redraws => exact received _
  | approve code target name => exact received _
  | poll code secret token => exact received _
  | revoke name => exact received _
  | proceed index =>
    rw [PairingRun.step, PairingRun.proceed]
    split
    · exact member
    next other isOther =>
      refine mem_set_of_ne isOther member ?_
      rintro rfl
      rw [next_of_isDone done]
  | fail index =>
    rw [PairingRun.step, PairingRun.fail]
    split
    · exact member
    next other isOther =>
      split
      · exact member
      next open_ =>
        refine mem_set_of_ne isOther member ?_
        rintro rfl
        exact absurd done open_
  | wait ms => exact member

/-! ### What a pairing comes from -/

/-- A pairing that was given out, with the hash of its secret, and that was approved if it says so. -/
structure Genuine (runtime : PairingRuntime) (requests : List PairingRequest)
    (pairing : BrowserPairing) : Prop where
  issued : ∃ secret, pairing.pollSecretHash = runtime.hashSecret secret.toList ∧
    .pair (.paired { pairing with approvedBinding := none } secret) ∈ requests
  approved : ∀ name, pairing.approvedBinding = some name → ∃ approved binding,
    .approve (.approved approved binding) ∈ requests ∧ approved.code = pairing.code ∧
      binding.name = name

/-- A poll that may be given a token for a binding of this name. -/
structure Entitled (runtime : PairingRuntime) (requests : List PairingRequest)
    (pairing : BrowserPairing) (secret name : String) : Prop where
  genuine : Genuine runtime requests pairing
  secret : runtime.sameHash pairing.pollSecretHash secret.toList = true
  approved : pairing.approvedBinding = some name

/-- What a request has read was so. -/
def PairingRequest.Ok (runtime : PairingRuntime) (requests : List PairingRequest) :
    PairingRequest → Prop
  | .pair (.putPairing pairing secret) =>
      pairing.approvedBinding = none ∧ pairing.pollSecretHash = runtime.hashSecret secret.toList
  | .approve (.found pairing _ _) => ∀ read, pairing = some read → Genuine runtime requests read
  | .approve (.parseTarget pairing _ _) | .approve (.checkName pairing _ _ _)
  | .approve (.putPairing pairing _) => Genuine runtime requests pairing
  | .approve (.deleteTokens pairing binding) | .approve (.putBinding pairing binding) =>
      Genuine runtime requests pairing ∧ binding.state = .active
  | .poll (.found _ _ _ pairing) => ∀ read, pairing = some read → Genuine runtime requests read
  | .poll (.readBinding pairing secret _ name) => Entitled runtime requests pairing secret name
  | .poll (.claim pairing secret _ binding) | .poll (.addToken pairing secret _ binding)
  | .poll (.delivered pairing secret binding _) =>
      Entitled runtime requests pairing secret binding.name
  | _ => True

theorem Genuine.grows {after : List PairingRequest} {pairing : BrowserPairing}
    (genuine : Genuine runtime requests pairing) (grows : Grows requests after) :
    Genuine runtime after pairing where
  issued := by
    obtain ⟨secret, isHash, member⟩ := genuine.issued
    exact ⟨secret, isHash, grows _ member rfl⟩
  approved := by
    intro name isName
    obtain ⟨approved, binding, member, same⟩ := genuine.approved name isName
    exact ⟨approved, binding, grows _ member rfl, same⟩

theorem Entitled.grows {after : List PairingRequest} {pairing : BrowserPairing}
    {secret name : String} (entitled : Entitled runtime requests pairing secret name)
    (grows : Grows requests after) : Entitled runtime after pairing secret name :=
  { entitled with genuine := entitled.genuine.grows grows }

theorem PairingRequest.Ok.grows {after : List PairingRequest} {request : PairingRequest}
    (ok : request.Ok runtime requests) (grows : Grows requests after) :
    request.Ok runtime after := by
  cases request with
  | pair step => cases step <;> exact ok
  | approve step =>
    cases step with
    | found pairing target name => exact fun read isRead => (ok read isRead).grows grows
    | parseTarget pairing target name => exact Genuine.grows ok grows
    | checkName pairing target name next => exact Genuine.grows ok grows
    | deleteTokens pairing binding => exact ⟨ok.1.grows grows, ok.2⟩
    | putBinding pairing binding => exact ⟨ok.1.grows grows, ok.2⟩
    | putPairing pairing binding => exact Genuine.grows ok grows
    | _ => trivial
  | poll step =>
    cases step with
    | found code secret token pairing => exact fun read isRead => (ok read isRead).grows grows
    | readBinding pairing secret token name => exact Entitled.grows ok grows
    | claim pairing secret token binding => exact Entitled.grows ok grows
    | addToken pairing secret token binding => exact Entitled.grows ok grows
    | delivered pairing secret binding at_ => exact Entitled.grows ok grows
    | _ => trivial
  | revoke step => trivial
  | failed => trivial

section Statements

variable {store : BrowserStore} {now : Int}

theorem ok_checkPairing {pairing : Option BrowserPairing}
    (read : ∀ found, pairing = some found → Genuine runtime requests found)
    (target : Except String BrowserTarget) (name : Option Json) :
    (PairingRequest.approve (checkPairing now pairing target name)).Ok runtime requests := by
  unfold checkPairing
  split
  · trivial
  split
  · trivial
  split
  · trivial
  · exact read _ rfl

theorem ok_firstName {pairing : BrowserPairing} (genuine : Genuine runtime requests pairing)
    (target : Except String BrowserTarget) (name : Option Json) :
    (PairingRequest.approve (firstName runtime pairing target name)).Ok runtime requests := by
  unfold firstName
  split
  · trivial
  · exact genuine
  split
  · exact genuine
  · trivial

theorem ok_checkedName {pairing : BrowserPairing} (genuine : Genuine runtime requests pairing)
    (target : BrowserTarget) (name : String) (next : Option Nat) :
    (PairingRequest.approve (checkedName runtime store now pairing target name next)).Ok
      runtime requests := by
  unfold checkedName
  split
  · split
    · trivial
    · exact genuine
  · exact ⟨genuine, rfl⟩

theorem ok_checkPoll {pairing : Option BrowserPairing}
    (read : ∀ found, pairing = some found → Genuine runtime requests found) (code secret : String)
    (token : TokenRecord) :
    (PairingRequest.poll (checkPoll runtime now code secret token pairing)).Ok runtime requests := by
  unfold checkPoll
  split
  · trivial
  split
  · trivial
  next isSecret =>
    split
    · trivial
    split
    · trivial
    next isApproved => exact ⟨read _ rfl, eq_true_of_ne_false isSecret, isApproved⟩

theorem ok_checkBinding {pairing : BrowserPairing} {secret name : String}
    (entitled : Entitled runtime requests pairing secret name) (token : TokenRecord) :
    (PairingRequest.poll (checkBinding pairing secret token
      (store.getBrowserBinding name))).Ok runtime requests := by
  unfold checkBinding
  split
  next isBinding =>
    obtain rfl := BrowserStore.name_of_getBrowserBinding isBinding
    split
    · exact entitled
    · trivial
  · trivial

theorem ok_next (stored : ∀ code pairing, store.getPairing code = some pairing →
    Genuine runtime requests pairing) {request : PairingRequest}
    (ok : request.Ok runtime requests) : (request.next runtime store now).Ok runtime requests := by
  cases request with
  | pair step =>
    cases step with
    | draw label secret code redraws =>
      change (PairingRequest.pair (redrawn store label secret code redraws)).Ok runtime requests
      unfold redrawn
      split <;> trivial
    | drawn label secret code => exact ⟨rfl, rfl⟩
    | _ => trivial
  | approve step =>
    cases step with
    | lookUp code target name => exact fun read isRead => stored code read isRead
    | found pairing target name => exact ok_checkPairing ok target name
    | parseTarget pairing target name => exact ok_firstName ok target name
    | checkName pairing target name next => exact ok_checkedName ok target name next
    | deleteTokens pairing binding => exact ok
    | putBinding pairing binding => exact ok.1
    | _ => trivial
  | poll step =>
    cases step with
    | lookUp code secret token => exact fun read isRead => stored code read isRead
    | found code secret token pairing => exact ok_checkPoll ok code secret token
    | readBinding pairing secret token name => exact ok_checkBinding ok token
    | claim pairing secret token binding =>
      rw [PairingRequest.next, PollStep.next]
      split
      · exact ok
      · trivial
    | addToken pairing secret token binding => exact ok
    | delivered pairing secret binding at_ => exact ok
    | _ => trivial
  | revoke step => trivial
  | failed => trivial

/-- Only two statements put a pairing. -/
theorem put_cases {request : PairingRequest} {pairing : BrowserPairing}
    (isPut : request.write now = some (.putPairing pairing)) :
    (∃ secret, request = .pair (.putPairing pairing secret)) ∨
      ∃ read binding, request = .approve (.putPairing read binding) ∧
        pairing = { read with approvedBinding := some binding.name } := by
  cases request with
  | pair step =>
    cases step with
    | putPairing put secret =>
      obtain rfl := BrowserWrite.putPairing.inj (Option.some.inj isPut)
      exact .inl ⟨secret, rfl⟩
    | _ => cases isPut
  | approve step =>
    cases step with
    | putPairing read binding =>
      obtain rfl := BrowserWrite.putPairing.inj (Option.some.inj isPut)
      exact .inr ⟨read, binding, rfl, rfl⟩
    | _ => cases isPut
  | poll step => cases step <;> cases isPut
  | revoke step => cases step <;> cases isPut
  | failed => cases isPut

/-- A pairing that is put is genuine once the request that puts it is done. -/
theorem genuine_of_put {request : PairingRequest} {pairing : BrowserPairing}
    (ok : request.Ok runtime requests) (isPut : request.write now = some (.putPairing pairing))
    (member : request.next runtime store now ∈ requests) : Genuine runtime requests pairing := by
  obtain ⟨secret, rfl⟩ | ⟨read, binding, rfl, rfl⟩ := put_cases isPut
  · obtain ⟨unapproved, isHash⟩ := ok
    refine ⟨⟨secret, isHash, ?_⟩, fun name isName => ?_⟩
    · have same : { pairing with approvedBinding := none } = pairing := by rw [← unapproved]
      rw [same]
      exact member
    · rw [unapproved] at isName
      cases isName
  · have genuine : Genuine runtime requests read := ok
    refine ⟨genuine.issued, fun name isName => ?_⟩
    exact ⟨read, binding, member, rfl, Option.some.inj isName⟩

end Statements

/-! ### Every poll that gets a token is entitled to it -/

structure PairingSound (runtime : PairingRuntime) (run : PairingRun) : Prop where
  stored : ∀ code pairing, run.store.getPairing code = some pairing →
    Genuine runtime run.requests pairing
  requests : ∀ request ∈ run.requests, request.Ok runtime run.requests

theorem pairingSound_new (now : Int) : PairingSound runtime (.new now) where
  stored := fun _ _ isThere => nomatch isThere
  requests := fun _ member => nomatch member

theorem PairingSound.receive (sound : PairingSound runtime run) {request : PairingRequest}
    (ok : ∀ requests, request.Ok runtime requests) : PairingSound runtime (run.receive request) := by
  have grows : Grows run.requests (run.receive request).requests :=
    fun other member _ => List.mem_append_left _ member
  refine ⟨fun code pairing isThere => (sound.stored code pairing isThere).grows grows,
    fun other member => ?_⟩
  obtain member | member := List.mem_append.mp member
  · exact (sound.requests other member).grows grows
  · obtain rfl := List.mem_singleton.mp member
    exact ok _

theorem ok_start (label secret code : String) (redraws : List String)
    (requests : List PairingRequest) :
    (PairingRequest.pair (.start label secret code redraws)).Ok runtime requests := by
  unfold PairStep.start
  split <;> trivial

theorem PairingSound.proceed (sound : PairingSound runtime run) (index : Nat) :
    PairingSound runtime (run.proceed runtime index) := by
  have grows : Grows run.requests (run.proceed runtime index).requests :=
    grows_step run (.proceed index)
  unfold PairingRun.proceed at grows ⊢
  split
  · exact sound
  next request isRequest =>
    rw [isRequest] at grows
    have ok := sound.requests request (List.mem_of_getElem? isRequest)
    have less := (List.getElem?_eq_some_iff.mp isRequest).1
    refine ⟨fun code pairing isThere => ?_, fun other member => ?_⟩
    · cases isWrite : request.write run.now with
      | none =>
        rw [isWrite] at isThere
        exact (sound.stored code pairing isThere).grows grows
      | some write =>
        rw [isWrite] at isThere
        obtain isThere | ⟨rfl, -⟩ := getPairing_write isThere
        · exact (sound.stored code pairing isThere).grows grows
        · exact genuine_of_put (ok.grows grows) isWrite (List.mem_set less _)
    · obtain member | rfl := List.mem_or_eq_of_mem_set member
      · exact (sound.requests other member).grows grows
      · exact (ok_next sound.stored ok).grows grows

theorem PairingSound.step (sound : PairingSound runtime run) (event : PairingEvent) :
    PairingSound runtime (run.step runtime event) := by
  cases event with
  | pair label secret code redraws => exact sound.receive (ok_start label secret code redraws)
  | approve code target name => exact sound.receive fun _ => trivial
  | poll code secret token => exact sound.receive fun _ => trivial
  | revoke name => exact sound.receive fun _ => trivial
  | proceed index => exact sound.proceed index
  | fail index =>
    have grows : Grows run.requests (run.step runtime (.fail index)).requests :=
      grows_step run (.fail index)
    rw [PairingRun.step, PairingRun.fail] at grows ⊢
    split
    · exact sound
    next request isRequest =>
      rw [isRequest] at grows
      dsimp only at grows
      split at grows
      next done =>
        rw [if_pos done]
        exact sound
      next open_ =>
        rw [if_neg open_]
        refine ⟨fun code pairing isThere => (sound.stored code pairing isThere).grows grows,
          fun other member => ?_⟩
        obtain member | rfl := List.mem_or_eq_of_mem_set member
        · exact (sound.requests other member).grows grows
        · trivial
  | wait ms => exact { sound with }

theorem PairingSound.runs (sound : PairingSound runtime run) (events : List PairingEvent) :
    PairingSound runtime (run.runs runtime events) := by
  induction events generalizing run with
  | nil => exact sound
  | cons event rest inductionHypothesis => exact inductionHypothesis (sound.step event)

/-! ### At most one token -/

/-- A claimed pairing is gone and has one claimant, and the active bindings have different names. -/
structure Exclusive (run : PairingRun) : Prop where
  alone : ∀ code (first second : Nat) one two, run.requests[first]? = some one →
    run.requests[second]? = some two → one.claims? = some code → two.claims? = some code →
      first = second
  gone : ∀ request ∈ run.requests, ∀ code, request.claims? = some code →
    run.store.getPairing code = none
  active : ∀ entry ∈ run.active, nameTaken run.store entry.2 = true
  names : (run.active.map Prod.snd).Nodup
  early : ∀ pairing secret binding at_,
    .poll (.delivered pairing secret binding at_) ∈ run.requests → at_ < pairing.expiresAt

section Claims

variable {store : BrowserStore} {now : Int} {request : PairingRequest} {code : String}

/-- A request that has claimed a pairing had done so, or has just found it in the store. -/
theorem claims?_next (claims : (request.next runtime store now).claims? = some code) :
    request.claims? = some code ∨
      (store.getPairing code ≠ none ∧ request.write now = some (.deletePairing code)) := by
  cases request with
  | pair step => cases claims
  | approve step => cases claims
  | revoke step => cases claims
  | failed => cases claims
  | poll step =>
    cases step with
    | found found secret token pairing =>
      have claims : (PairingRequest.poll (checkPoll runtime now found secret token pairing)).claims? =
          some code := claims
      unfold checkPoll at claims
      split at claims
      · cases claims
      split at claims
      · cases claims
      split at claims
      · cases claims
      split at claims <;> cases claims
    | readBinding pairing secret token name =>
      have claims : (PairingRequest.poll (checkBinding pairing secret token
          (store.getBrowserBinding name))).claims? = some code := claims
      unfold checkBinding at claims
      split at claims
      · split at claims <;> cases claims
      · cases claims
    | claim pairing secret token binding =>
      rw [PairingRequest.next, PollStep.next] at claims
      split at claims
      next isThere =>
        obtain rfl := Option.some.inj claims
        exact .inr ⟨isThere ▸ Option.some_ne_none _, rfl⟩
      next => cases claims
    | addToken pairing secret token binding => exact .inl claims
    | delivered pairing secret binding at_ => exact .inl claims
    | _ => cases claims

/-- A token is delivered when it has been added. -/
theorem delivered_next {pairing : BrowserPairing} {secret : String} {binding : BrowserBinding}
    {at_ : Int}
    (isNext : request.next runtime store now = .poll (.delivered pairing secret binding at_)) :
    request = .poll (.delivered pairing secret binding at_) ∨
      at_ = now ∧ ∃ token, request = .poll (.addToken pairing secret token binding) := by
  have claims : (request.next runtime store now).claims? = some pairing.code := isNext ▸ rfl
  obtain was | ⟨-, isDelete⟩ := claims?_next claims
  · cases request with
    | poll step =>
      cases step with
      | addToken read given token bound =>
        obtain ⟨rfl, rfl, rfl, rfl⟩ := PollStep.delivered.inj (PairingRequest.poll.inj isNext)
        exact .inr ⟨rfl, token, rfl⟩
      | delivered read given bound since => exact .inl isNext
      | _ => cases was
    | _ => cases was
  · cases request with
    | poll step =>
      cases step with
      | claim read given token bound =>
        rw [PairingRequest.next, PollStep.next] at isNext
        split at isNext <;> cases isNext
      | deletePairing deleted message => cases isNext
      | _ => cases isDelete
    | _ => cases isNext

/-- What a write puts under a code that was not there. -/
theorem put_of_getPairing (absent : store.getPairing code = none) {write : Option BrowserWrite}
    (isThere : ((write.map store.write).getD store).getPairing code ≠ none) :
    ∃ pairing, write = some (.putPairing pairing) ∧ pairing.code = code := by
  obtain ⟨pairing, isPairing⟩ := Option.ne_none_iff_exists'.mp isThere
  cases write with
  | none => cases absent.symm.trans isPairing
  | some write =>
    obtain was | ⟨rfl, same⟩ := getPairing_write isPairing
    · cases absent.symm.trans was
    · exact ⟨pairing, rfl, same⟩

/-- In time, no pairing is put under a code that was claimed. -/
theorem PairingRequest.InTime.not_put (inTime : request.InTime run) {pairing : BrowserPairing}
    (isPut : request.write run.now = some (.putPairing pairing)) {other : PairingRequest}
    (member : other ∈ run.requests) : other.claims? ≠ some pairing.code := by
  obtain ⟨secret, rfl⟩ | ⟨read, binding, rfl, rfl⟩ := put_cases isPut
  · exact inTime other member
  · exact inTime other member

end Claims

/-! ### Names of active bindings -/

section Names

variable {request : PairingRequest}

theorem nameTaken_of_same (before : BrowserStore) {after : BrowserStore} {name : String}
    (same : after.getBrowserBinding name = before.getBrowserBinding name) :
    nameTaken after name = nameTaken before name := by
  rw [nameTaken, nameTaken, same]

/-- A statement other than two keeps every binding. -/
theorem keeps_bindings (store : BrowserStore) {now : Int}
    (notPut : ∀ pairing binding, request ≠ .approve (.putBinding pairing binding))
    (notRevoked : ∀ name, request ≠ .revoke (.revoke name)) (name : String) :
    (((request.write now).map store.write).getD store).getBrowserBinding name =
      store.getBrowserBinding name := by
  cases request with
  | pair step => cases step <;> rfl
  | approve step =>
    cases step with
    | putBinding pairing binding => exact absurd rfl (notPut pairing binding)
    | _ => rfl
  | poll step => cases step <;> rfl
  | revoke step =>
    cases step with
    | revoke name => exact absurd rfl (notRevoked name)
    | _ => rfl
  | failed => rfl

theorem activeAfter_of_other (active : List (String × String))
    (notPut : ∀ pairing binding, request ≠ .approve (.putBinding pairing binding))
    (notRevoked : ∀ name, request ≠ .revoke (.revoke name)) : activeAfter active request = active := by
  unfold activeAfter
  split
  · exact absurd rfl (notPut _ _)
  · exact absurd rfl (notRevoked _)
  · rfl

/-- The names of the active bindings after a statement. -/
theorem Exclusive.names_after (exclusive : Exclusive run) (inTime : request.InTime run)
    (ok : request.Ok runtime run.requests) :
    (∀ entry ∈ activeAfter run.active request,
      nameTaken (((request.write run.now).map run.store.write).getD run.store) entry.2 = true) ∧
      ((activeAfter run.active request).map Prod.snd).Nodup := by
  by_cases isPut : ∃ pairing binding, request = .approve (.putBinding pairing binding)
  · obtain ⟨pairing, binding, rfl⟩ := isPut
    have isFree : nameTaken run.store binding.name = false := inTime
    have isNew (entry : String × String) (member : entry ∈ run.active) : entry.2 ≠ binding.name := by
      intro same
      have isTaken := exclusive.active entry member
      rw [same, isFree] at isTaken
      cases isTaken
    refine ⟨fun entry member => ?_, ?_⟩
    · obtain rfl | member := List.mem_cons.mp member
      · refine (Option.any_eq_true _ _).mpr ⟨binding, ?_, decide_eq_true ok.2⟩
        exact (Members.get_set _ _ _ _).trans (if_pos rfl)
      · rw [nameTaken_of_same run.store]
        · exact exclusive.active entry member
        · exact (Members.get_set _ _ _ _).trans (if_neg (isNew entry member))
    · rw [activeAfter, List.map_cons, List.nodup_cons]
      refine ⟨fun member => ?_, exclusive.names⟩
      obtain ⟨entry, inActive, same⟩ := List.mem_map.mp member
      exact isNew entry inActive same
  by_cases isRevocation : ∃ name, request = .revoke (.revoke name)
  · obtain ⟨name, rfl⟩ := isRevocation
    refine ⟨fun entry member => ?_, exclusive.names.sublist (List.filter_sublist.map _)⟩
    obtain ⟨inActive, different⟩ := List.mem_filter.mp member
    have different := of_decide_eq_true different
    rw [nameTaken_of_same run.store]
    · exact exclusive.active entry inActive
    · refine getBrowserBinding_write run.store nofun nofun fun same => different ?_
      exact (BrowserWrite.revokeBrowserBinding.inj same).symm
  · have notPut : ∀ pairing binding, request ≠ .approve (.putBinding pairing binding) :=
      fun pairing binding same => isPut ⟨pairing, binding, same⟩
    have notRevoked : ∀ name, request ≠ .revoke (.revoke name) :=
      fun name same => isRevocation ⟨name, same⟩
    rw [activeAfter_of_other run.active notPut notRevoked]
    refine ⟨fun entry member => ?_, exclusive.names⟩
    rw [nameTaken_of_same run.store (keeps_bindings run.store notPut notRevoked entry.2)]
    exact exclusive.active entry member

end Names

theorem exclusive_new (now : Int) : Exclusive (.new now) where
  alone := fun _ _ _ _ _ isOne => nomatch isOne
  gone := fun _ member => nomatch member
  active := fun _ member => nomatch member
  names := List.nodup_nil
  early := fun _ _ _ _ member => nomatch member

/-- Requests that claim no more than those before. -/
theorem Exclusive.withRequests (exclusive : Exclusive run) {requests : List PairingRequest}
    (claims : ∀ (place : Nat) request, requests[place]? = some request →
      run.requests[place]? = some request ∨
        (request.claims? = none ∧ ∀ pairing secret binding at_,
          request ≠ .poll (.delivered pairing secret binding at_))) :
    Exclusive { run with requests := requests } where
  alone := by
    intro code first second one two isOne isTwo oneClaims twoClaims
    obtain isOne | ⟨isNone, -⟩ := claims first one isOne
    · obtain isTwo | ⟨isNone, -⟩ := claims second two isTwo
      · exact exclusive.alone code first second one two isOne isTwo oneClaims twoClaims
      · cases isNone.symm.trans twoClaims
    · cases isNone.symm.trans oneClaims
  gone := by
    intro request member code isClaim
    obtain ⟨place, isRequest⟩ := List.mem_iff_getElem?.mp member
    obtain isRequest | ⟨isNone, -⟩ := claims place request isRequest
    · exact exclusive.gone request (List.mem_of_getElem? isRequest) code isClaim
    · cases isNone.symm.trans isClaim
  active := exclusive.active
  names := exclusive.names
  early := by
    intro pairing secret binding at_ member
    obtain ⟨place, isRequest⟩ := List.mem_iff_getElem?.mp member
    obtain isRequest | ⟨-, notDelivered⟩ := claims place _ isRequest
    · exact exclusive.early pairing secret binding at_ (List.mem_of_getElem? isRequest)
    · exact absurd rfl (notDelivered pairing secret binding at_)

theorem Exclusive.receive (exclusive : Exclusive run) {request : PairingRequest}
    (claims : request.claims? = none)
    (notDelivered : ∀ pairing secret binding at_,
      request ≠ .poll (.delivered pairing secret binding at_)) :
    Exclusive (run.receive request) := by
  refine exclusive.withRequests fun place other isOther => ?_
  obtain less | last := Nat.lt_or_ge place run.requests.length
  · rw [List.getElem?_append_left less] at isOther
    exact .inl isOther
  · rw [List.getElem?_append_right last] at isOther
    obtain rfl := List.mem_singleton.mp (List.mem_of_getElem? isOther)
    exact .inr ⟨claims, notDelivered⟩

theorem Exclusive.proceed (exclusive : Exclusive run) (sound : PairingSound runtime run) {index : Nat}
    (careful : ∀ request ∈ run.requests[index]?, request.InTime run) :
    Exclusive (run.proceed runtime index) := by
  unfold PairingRun.proceed
  split
  · exact exclusive
  next request isRequest =>
    have inTime := careful request isRequest
    have member := List.mem_of_getElem? isRequest
    obtain ⟨less, isAt⟩ := List.getElem?_eq_some_iff.mp isRequest
    obtain ⟨active, names⟩ := exclusive.names_after inTime (sound.requests request member)
    have others (place : Nat) (other : PairingRequest) (different : place ≠ index)
        (isOther : (run.requests.set index (request.next runtime run.store run.now))[place]? =
          some other) : run.requests[place]? = some other := by
      rwa [List.getElem?_set_ne (Ne.symm different)] at isOther
    have here (other : PairingRequest)
        (isOther : (run.requests.set index (request.next runtime run.store run.now))[index]? =
          some other) : other = request.next runtime run.store run.now := by
      rw [List.getElem?_set_self less] at isOther
      exact (Option.some.inj isOther).symm
    -- Another claimant of the code that this request has claimed.
    have solitary (place : Nat) (other : PairingRequest) (code : String)
        (isOther : run.requests[place]? = some other)
        (claims : (request.next runtime run.store run.now).claims? = some code)
        (otherClaims : other.claims? = some code) : index = place := by
      obtain was | ⟨isThere, -⟩ := claims?_next claims
      · exact exclusive.alone code index place request other isRequest isOther was otherClaims
      · exact absurd (exclusive.gone other (List.mem_of_getElem? isOther) code otherClaims) isThere
    refine { alone := ?_, gone := ?_, active := active, names := names, early := ?_ }
    · intro code first second one two isOne isTwo oneClaims twoClaims
      by_cases isFirst : first = index
      · subst isFirst
        obtain rfl := here one isOne
        by_cases isSecond : second = first
        · exact isSecond.symm
        · exact solitary second two code (others second two isSecond isTwo) oneClaims twoClaims
      · by_cases isSecond : second = index
        · subst isSecond
          obtain rfl := here two isTwo
          exact (solitary first one code (others first one isFirst isOne) twoClaims oneClaims).symm
        · exact exclusive.alone code first second one two (others first one isFirst isOne)
            (others second two isSecond isTwo) oneClaims twoClaims
    · intro other inRequests code otherClaims
      -- A claim that was there before stays without its pairing.
      have stays {claimant : PairingRequest} (member : claimant ∈ run.requests)
          (claims : claimant.claims? = some code) :
          (((request.write run.now).map run.store.write).getD run.store).getPairing code = none := by
        by_contra isThere
        obtain ⟨pairing, isPut, rfl⟩ := put_of_getPairing (exclusive.gone claimant member code claims) isThere
        exact inTime.not_put isPut member claims
      obtain inRequests | rfl := List.mem_or_eq_of_mem_set inRequests
      · exact stays inRequests otherClaims
      · obtain was | ⟨-, isDelete⟩ := claims?_next otherClaims
        · exact stays member was
        · rw [isDelete]
          exact getPairing_deletePairing run.store code
    · intro pairing secret binding at_ delivered
      obtain delivered | isNext := List.mem_or_eq_of_mem_set delivered
      · exact exclusive.early pairing secret binding at_ delivered
      · obtain rfl | ⟨rfl, token, rfl⟩ := delivered_next isNext.symm
        · exact exclusive.early pairing secret binding at_ member
        · exact inTime

theorem Exclusive.step (exclusive : Exclusive run) (sound : PairingSound runtime run)
    (event : PairingEvent) (careful : run.Careful event) : Exclusive (run.step runtime event) := by
  cases event with
  | pair label secret code redraws => exact exclusive.receive rfl nofun
  | approve code target name => exact exclusive.receive rfl nofun
  | poll code secret token => exact exclusive.receive rfl nofun
  | revoke name => exact exclusive.receive rfl nofun
  | proceed index => exact exclusive.proceed sound careful
  | fail index =>
    rw [PairingRun.step, PairingRun.fail]
    split
    · exact exclusive
    split
    · exact exclusive
    · refine exclusive.withRequests fun place request isRequest => ?_
      rw [List.getElem?_set] at isRequest
      split at isRequest
      · split at isRequest
        · obtain rfl := Option.some.inj isRequest
          exact .inr ⟨rfl, nofun⟩
        · cases isRequest
      · exact .inl isRequest
  | wait ms => exact { exclusive with }

theorem Exclusive.runs (exclusive : Exclusive run) (sound : PairingSound runtime run)
    (events : List PairingEvent) (careful : CarefulRun runtime run events) :
    Exclusive (run.runs runtime events) := by
  induction events generalizing run with
  | nil => exact exclusive
  | cons event rest inductionHypothesis =>
    exact inductionHypothesis (exclusive.step sound event careful.1) (sound.step event) careful.2

/-- A request whose answer was a token for the pairing with this code. -/
def PairingRun.Yields (run : PairingRun) (request : Nat) (code : String) : Prop :=
  ∃ pairing secret binding at_, pairing.code = code ∧
    run.requests[request]? = some (.poll (.delivered pairing secret binding at_))

namespace Extension

def plain : PairingRuntime := ⟨⟨fun _ => "", fun _ => none⟩, id⟩

def token : TokenRecord := ⟨"", "abcdefgh", "", "2026-10-19T00:00:00.000Z", none⟩

def proceeds (count request : Nat) : List PairingEvent := List.replicate count (.proceed request)

/-- A pairing is given out. -/
def asked : List PairingEvent := .pair "Chrome" "s3cret" "ABCDEFGH" [] :: proceeds 4 0

def approve (name : String) : PairingEvent :=
  .approve "ABCDEFGH" (.ok (.identity "work")) (some (.str name))

def poll : PairingEvent := .poll "ABCDEFGH" "s3cret" token

/-- One approval, and the poll after it. -/
def approvedOnce : List PairingEvent := asked ++ approve "one" :: proceeds 7 1 ++ poll :: proceeds 5 2

/-- Both approvals find the pairing not approved. The first is finished and a poll claims the
pairing; then the second is finished, and the next poll claims it again. -/
def approvedTwice : List PairingEvent :=
  asked ++ approve "one" :: approve "two" :: proceeds 2 1 ++ proceeds 2 2 ++ proceeds 5 1 ++
    poll :: proceeds 5 3 ++ proceeds 5 2 ++ poll :: proceeds 5 4

end Extension

end AiSwitcher.Gateway.Browser
