import BePyEco.Accounts.ViewControl
import BePyEco.Library.Ticket

/-!
# Concurrent retries of an idempotent request

Any number of requests to one endpoint with one actor, key and body, interleaved by statements.
The lookup of the record and its insert are far apart, so two requests that both find nothing both
run the effect; the unique constraint refuses the second record after that.

For the endpoints that name a resource the discipline `RetriesApart` keeps the effect to one
request: no lookup finds nothing while another request is between its own empty lookup and its
end, no expired record is discarded, and the key fits its column.  It makes the key a ticket of
`Library.Ticket`.  `CreateStaffView` needs no discipline, because the address of the new staff
member is unique.  Either way every request that succeeds gives the same answer
(`executedOnce_of_retriesApart`).
-/

namespace BePyEco

open Library

/-! ## Retries -/

/-- What the retries of a request have in common. -/
structure Retry where
  endpoint : IdempotentEndpoint
  actorId : Id
  key : String
  data : Json

namespace Retry

/-- The scope of their idempotency record. -/
def scope (R : Retry) : IdempotencyScope where
  actorType := .staff
  actorId := R.actorId
  action := R.endpoint.action
  idempotencyKey := R.key

/-- The request is one of the retries. -/
structure Sends (R : Retry) (request : Request) : Prop where
  actor : request.user.id = R.actorId
  key : request.idempotencyKey = some R.key
  data : request.data = R.data

lemma Sends.scope_eq {R : Retry} {request : Request} (h : R.Sends request) {key : String}
    (hkey : key = R.key) : request.scope R.endpoint.action key = R.scope := by
  unfold Request.scope scope
  rw [h.actor, hkey]

lemma Sends.key_eq {R : Retry} {request : Request} (h : R.Sends request) {key : String}
    (hkey : requireIdempotencyKey request = .ok key) : key = R.key := by
  unfold requireIdempotencyKey at hkey
  rw [h.key] at hkey
  dsimp only at hkey
  split at hkey
  · cases hkey
  · exact (Except.ok.inj hkey).symm

end Retry

/-- The records of the scope are left alone, and no staff address is lost. -/
structure Apart (scope : IdempotencyScope) (w w' : World) : Prop where
  records : ∀ r : IdempotencyRecord, r.scope = scope →
    (r ∈ w'.db.idempotencyRecords.rows ↔ r ∈ w.db.idempotencyRecords.rows)
  emails : KeepsStaffEmails w w'

section Retries

variable [SerializerFields] [PyText]

/-- Any number of requests to the endpoint of the retries, with other calls and changes from
outside that leave the records of the key alone. -/
def retrySystem (R : Retry) : System (ViewPc ⊕ Service Unit) World :=
  (viewControl R.endpoint).system (Apart R.scope)

end Retries

/-- A pool of requests. -/
abbrev ViewPool (ι : Type) := Pool ι (ViewPc ⊕ Service Unit) World

/-- No retry has executed a statement yet. -/
def Retry.NotStarted (R : Retry) : ViewPc ⊕ Service Unit → Prop
  | .inl (.start request) => R.Sends request
  | .inl _ => False
  | .inr rest => rest.Guarantees (Apart R.scope)

lemma Retry.NotStarted.cases {R : Retry} {call : ViewPc ⊕ Service Unit} (h : R.NotStarted call) :
    (∃ request, call = .inl (.start request) ∧ R.Sends request) ∨
      ∃ rest, call = .inr rest ∧ rest.Guarantees (Apart R.scope) := by
  cases call with
  | inl c =>
      cases c with
      | start request => exact Or.inl ⟨request, rfl, h⟩
      | _ => cases h
  | inr rest => exact Or.inr ⟨rest, rfl, h⟩

section Sound

variable [SerializerFields] [PyText]

/-- The effect of `CreateStaffView` begins with the insert of the staff member. -/
def Retry.InsertsFirst (R : Retry) (effect : Service Response) : Prop :=
  ∃ email password role rest, createStaffSerializer R.data = .ok (email, password, role) ∧
    effect = Program.exec (insertStaff email password role) >>= rest

/-- What a request knows at its control point. -/
def Retry.Sound (R : Retry) : ViewPc ⊕ Service Unit → Prop
  | .inl (.start request) => R.Sends request
  | .inl (.lookup request actor key) => R.Sends request ∧ key = R.key ∧ GuardedActor request actor
  | .inl (.clock request actor key record) => R.Sends request ∧ key = R.key ∧
    GuardedActor request actor ∧ record.scope = R.scope
  | .inl (.discard request actor key _) => R.Sends request ∧ key = R.key ∧
    GuardedActor request actor
  | .inl (.effect request key stage exec next) => R.Sends request ∧ key = R.key ∧
    (Program.stmt exec next).EndsWith Silent (Audits R.endpoint.action) ∧
    (R.endpoint = .createStaff → stage = 0 → R.InsertsFirst (.stmt exec next))
  | .inl (.remember request key response) => R.Sends request ∧ key = R.key ∧
    response.status ≤ maxPositiveSmallInteger
  | .inl _ => True
  | .inr rest => rest.Guarantees (Apart R.scope)

end Sound

section Steps

variable [SerializerFields] [PyText] {R : Retry}

/-- The two kinds of steps of the system. -/
lemma retrySystem_next {call call' : ViewPc ⊕ Service Unit} {w w' : World}
    (h : (retrySystem R).next call w = some (call', w')) :
    (∃ c c', call = .inl c ∧ call' = .inl c' ∧ ViewStep R.endpoint c w c' w') ∨
      (∃ rest rest', call = .inr rest ∧ call' = .inr rest' ∧ rest.step w = some (rest', w')) := by
  obtain ⟨c, c', rfl, rfl, hnext⟩ | hother := Control.system_next h
  · exact Or.inl ⟨c, c', rfl, rfl, viewStep_of_next R.endpoint hnext⟩
  · exact Or.inr hother

/-- Behind the guard the device is in the cache, so no lookup comes before the insert. -/
lemma createStaffEffect_cases {request : Request} {actor : StaffInstance}
    (hrequest : R.Sends request) (hactor : GuardedActor request actor) :
    (∃ raised, createStaffEffect actor request = .done (.error raised)) ∨
      R.InsertsFirst (createStaffEffect actor request) := by
  obtain ⟨device, hdevice, rfl⟩ := hactor
  unfold createStaffEffect
  cases hdata : createStaffSerializer request.data with
  | error e => exact Or.inl ⟨.app e, rfl⟩
  | ok fields =>
      obtain ⟨email, password, role⟩ := fields
      rw [Program.ofExcept_ok, Program.done_ok_bind]
      dsimp only
      unfold createStaff
      rw [requireConfirmedMfa_cached hdevice, Program.done_ok_bind]
      dsimp only
      cases hpolicy : checkPolicy request.user.role "accounts.create_staff" with
      | false => exact Or.inl ⟨.app .insufficientPermission, rfl⟩
      | true =>
          rw [hrequest.data] at hdata
          rw [Program.require_true, Program.done_ok_bind, Program.liftM_eq, Program.bind_assoc]
          exact Or.inr ⟨email, password, role, _, hdata, rfl⟩

/-- An effect begins soundly. -/
lemma Retry.sound_enter {request : Request} {actor : StaffInstance} {key : String}
    (hrequest : R.Sends request) (hkey : key = R.key) (hactor : GuardedActor request actor) :
    R.Sound (.inl (.enter request key 0 (R.endpoint.effect actor request))) := by
  have hends := R.endpoint.effect_endsWith actor request
  cases heffect : R.endpoint.effect actor request with
  | done r =>
      rw [heffect] at hends
      cases r with
      | ok response => exact hends.elim
      | error raised => exact True.intro
  | stmt exec next =>
      rw [heffect] at hends
      refine ⟨hrequest, hkey, hends, fun hendpoint _ => ?_⟩
      rw [hendpoint] at heffect
      obtain ⟨raised, hraised⟩ | hinserts := createStaffEffect_cases hrequest hactor
      · cases heffect.symm.trans hraised
      · rw [← heffect]
        exact hinserts

/-- What a statement of an effect does: it writes the audit entry and the response is due, or it
is silent. -/
lemma Retry.Sound.effect {request : Request} {key : String} {stage : ℕ} {exec : World → World}
    {next : World → Service Response} (h : R.Sound (.inl (.effect request key stage exec next)))
    (w : World) :
    (∃ response, ViewPc.enter request key (stage + 1) (next w) = .remember request key response ∧
        Audits R.endpoint.action response w (exec w)) ∨
      (Silent w (exec w) ∧ ∃ raised,
        ViewPc.enter request key (stage + 1) (next w) = .failed raised) ∨
      (Silent w (exec w) ∧ ∃ exec' next',
        ViewPc.enter request key (stage + 1) (next w) =
          .effect request key (stage + 1) exec' next' ∧
        (Program.stmt exec' next').EndsWith Silent (Audits R.endpoint.action)) := by
  obtain ⟨response, hnext, haudits⟩ | ⟨hsilent, raised, hnext⟩ |
    ⟨hsilent, exec', next', hnext, hends⟩ := h.2.2.1.step w
  · rw [hnext]
    exact Or.inl ⟨response, rfl, haudits⟩
  · rw [hnext]
    exact Or.inr (Or.inl ⟨hsilent, raised, rfl⟩)
  · rw [hnext]
    exact Or.inr (Or.inr ⟨hsilent, exec', next', rfl, hends⟩)

/-- A statement of an effect leaves the records alone. -/
lemma Retry.Sound.records_effect {request : Request} {key : String} {stage : ℕ}
    {exec : World → World} {next : World → Service Response}
    (h : R.Sound (.inl (.effect request key stage exec next))) (w : World) :
    (exec w).db.idempotencyRecords = w.db.idempotencyRecords := by
  obtain ⟨response, -, haudits⟩ | ⟨hsilent, -⟩ | ⟨hsilent, -⟩ := h.effect w
  · exact haudits.records
  · exact hsilent.records
  · exact hsilent.records

/-- The control point that a step reaches is sound. -/
lemma ViewStep.sound {c c' : ViewPc} {w w' : World} (h : ViewStep R.endpoint c w c' w')
    (hc : R.Sound (.inl c)) : R.Sound (.inl c') := by
  cases h with
  | fail raised w hbefore => exact True.intro
  | guard w hactor hkey => exact ⟨hc, Retry.Sends.key_eq hc hkey, hactor⟩
  | unused hnone => exact Retry.sound_enter hc.1 hc.2.1 hc.2.2
  | found hmem hscope =>
      exact ⟨hc.1, hc.2.1, hc.2.2, hscope.trans (hc.1.scope_eq hc.2.1)⟩
  | expired hexpired => exact ⟨hc.1, hc.2.1, hc.2.2.1⟩
  | replay w => exact True.intro
  | discard request actor key record w => exact Retry.sound_enter hc.1 hc.2.1 hc.2.2
  | effect request key stage exec next w =>
      obtain ⟨response, hnext, haudits⟩ | ⟨-, raised, hnext⟩ | ⟨-, exec', next', hnext, hends⟩ :=
        hc.effect w
      · rw [hnext]
        exact ⟨hc.1, hc.2.1, haudits.status⟩
      · rw [hnext]
        exact True.intro
      · rw [hnext]
        exact ⟨hc.1, hc.2.1, hends, fun _ hstage => absurd hstage (Nat.succ_ne_zero stage)⟩
  | remember hremembered => exact True.intro
  | forget hraised => exact True.intro

lemma Retry.NotStarted.sound {call : ViewPc ⊕ Service Unit} (h : R.NotStarted call) :
    R.Sound call := by
  obtain ⟨request, rfl, hsends⟩ | ⟨rest, rfl, hrest⟩ := h.cases
  · exact hsends
  · exact hrest

/-- What a request knows does not depend on the store. -/
lemma Retry.relyGuarantee (R : Retry) :
    (retrySystem R).RelyGuarantee (fun _ _ => True) fun _ call => R.Sound call where
  stable hcall _ := hcall
  guarantee hcall hnext := by
    refine ⟨trivial, ?_⟩
    obtain ⟨c, c', rfl, rfl, hstep⟩ | ⟨rest, rest', rfl, rfl, hstep⟩ := retrySystem_next hnext
    · exact hstep.sound hcall
    · exact (Program.Guarantees.step hcall hstep).2
  rely _ := trivial

variable {ι : Type} [DecidableEq ι] {ok : ViewPool ι → ι → Prop} {P₀ P : ViewPool ι}

/-- Along every run, every request is sound. -/
theorem Retry.sound_of_run (hstart : ∀ i, R.NotStarted (P₀.pc i))
    (hrun : (retrySystem R).Run ok P₀ P) : ∀ i, R.Sound (P.pc i) :=
  R.relyGuarantee.knows (fun i => (hstart i).sound) hrun

end Steps

/-! ## Where answers come from -/

/-- The response that a record remembers. -/
def IdempotencyRecord.response (r : IdempotencyRecord) : Response where
  status := r.responseStatus
  data := r.responseBody

/-- The response that a request took from a record. -/
def copiedResponse : ViewPc ⊕ Service Unit → Option Response
  | .inl (.clock _ _ _ record) => some record.response
  | .inl (.replayed response) => some response
  | _ => none

/-- What a request has answered. -/
def answer : ViewPc ⊕ Service Unit → Option Response
  | .inl (.executed response) => some response
  | .inl (.replayed response) => some response
  | _ => none

/-- Some request ran the effect and answered with the response. -/
def ExecutedWith {ι : Type} (P : ViewPool ι) (response : Response) : Prop :=
  ∃ i, P.pc i = .inl (.executed response)

/-- Every response that is stored or was copied is the answer of a request that ran the effect. -/
structure Retry.Answered {ι : Type} (R : Retry) (P : ViewPool ι) : Prop where
  stored : ∀ r ∈ P.store.db.idempotencyRecords.rows, r.scope = R.scope → ExecutedWith P r.response
  copied : ∀ i response, copiedResponse (P.pc i) = some response → ExecutedWith P response

section Answers

variable [SerializerFields] [PyText] {R : Retry}

omit [SerializerFields] [PyText] in
lemma copiedResponse_enter (request : Request) (key : String) (stage : ℕ)
    (rest : Service Response) : copiedResponse (.inl (.enter request key stage rest)) = none := by
  cases rest with
  | done r => cases r <;> rfl
  | stmt exec next => rfl

omit [SerializerFields] [PyText] in
/-- The record of a remembered response. -/
lemma Remembered.of_scope {scope : IdempotencyScope} {data : Json} {response : Response}
    {record : IdempotencyRecord} {w w' : World}
    (h : Remembered scope data response.status response.data record w w') :
    record.scope = scope ∧ record.response = response := by
  obtain ⟨id, rfl⟩ := h.row
  exact ⟨rfl, rfl⟩

/-- A record is only stored by the request that answers with it, and a response is only copied
from a stored record. -/
lemma ViewStep.provenance {c c' : ViewPc} {w w' : World} (h : ViewStep R.endpoint c w c' w')
    (hc : R.Sound (.inl c)) :
    (∀ r ∈ w'.db.idempotencyRecords.rows,
        r ∈ w.db.idempotencyRecords.rows ∨ c' = .executed r.response) ∧
      ∀ response, copiedResponse (.inl c') = some response →
        copiedResponse (.inl c) = some response ∨
          ∃ r ∈ w.db.idempotencyRecords.rows, r.scope = R.scope ∧ r.response = response := by
  cases h with
  | fail raised w hbefore => exact ⟨fun r hr => Or.inl hr, fun _ h => nomatch h⟩
  | guard w hactor hkey => exact ⟨fun r hr => Or.inl hr, fun _ h => nomatch h⟩
  | unused hnone =>
      refine ⟨fun r hr => Or.inl hr, fun _ h => ?_⟩
      rw [copiedResponse_enter] at h
      cases h
  | @found request actor key w record hmem hscope =>
      refine ⟨fun r hr => Or.inl hr, fun response h => Or.inr ⟨record, hmem, ?_, ?_⟩⟩
      · exact hscope.trans (hc.1.scope_eq hc.2.1)
      · exact Option.some.inj h
  | expired hexpired => exact ⟨fun r hr => Or.inl hr, fun _ h => nomatch h⟩
  | replay w => exact ⟨fun r hr => Or.inl hr, fun _ h => Or.inl h⟩
  | discard request actor key record w =>
      refine ⟨fun r hr => Or.inl ((Table.mem_delete _).1 hr).1, fun _ h => ?_⟩
      rw [copiedResponse_enter] at h
      cases h
  | effect request key stage exec next w =>
      refine ⟨fun r hr => Or.inl ?_, fun _ h => ?_⟩
      · rw [← hc.records_effect w]
        exact hr
      · rw [copiedResponse_enter] at h
        cases h
  | @remember request key response record w w' hremembered =>
      refine ⟨fun r hr => ?_, fun _ h => nomatch h⟩
      rw [hremembered.rows, List.mem_append, List.mem_singleton] at hr
      obtain hr | rfl := hr
      · exact Or.inl hr
      · right
        rw [hremembered.of_scope.2]
  | forget hraised => exact ⟨fun r hr => Or.inl hr, fun _ h => nomatch h⟩

variable {ι : Type} [DecidableEq ι] {ok : ViewPool ι → ι → Prop} {P₀ P : ViewPool ι}

/-- A request that has answered stays where it is. -/
lemma ExecutedWith.advance {i : ι} {call' : ViewPc ⊕ Service Unit} {w' : World}
    {response : Response} (h : ExecutedWith P response)
    (hnext : (retrySystem R).next (P.pc i) P.store = some (call', w')) :
    ExecutedWith (P.advance i call' w') response := by
  obtain ⟨j, hj⟩ := h
  have hne : j ≠ i := by
    rintro rfl
    rw [hj] at hnext
    cases hnext
  exact ⟨j, (Pool.pc_advance_of_ne hne call' w').trans hj⟩

/-- Along every run that starts without a record of the key, every answer goes back to a request
that ran the effect. -/
theorem Retry.answered_of_run (hstart : ∀ i, R.NotStarted (P₀.pc i))
    (hunused : ∀ r ∈ P₀.store.db.idempotencyRecords.rows, r.scope ≠ R.scope)
    (hrun : (retrySystem R).Run ok P₀ P) : R.Answered P := by
  induction hrun with
  | refl =>
      refine ⟨fun r hr hscope => absurd hscope (hunused r hr), fun i response hcopied => ?_⟩
      obtain ⟨request, hpc, -⟩ | ⟨rest, hpc, -⟩ := (hstart i).cases
      · rw [hpc] at hcopied
        cases hcopied
      · rw [hpc] at hcopied
        cases hcopied
  | @call P i call' w' hrun _ hnext ih =>
      obtain ⟨c, c', hcall, rfl, hstep⟩ | ⟨rest, rest', hcall, rfl, hstep⟩ := retrySystem_next hnext
      · have hc := Retry.sound_of_run hstart hrun i
        rw [hcall] at hc
        obtain ⟨hstored, hcopied⟩ := hstep.provenance hc
        constructor
        · intro r hr hscope
          obtain hr | rfl := hstored r hr
          · exact (ih.stored r hr hscope).advance hnext
          · exact ⟨i, P.pc_advance_self i _ w'⟩
        · intro j response hj
          obtain ⟨rfl, hpc⟩ | ⟨-, hpc⟩ := P.pc_advance_cases i j (.inl c') w'
          · rw [hpc] at hj
            obtain hj | ⟨r, hr, hscope, rfl⟩ := hcopied response hj
            · rw [← hcall] at hj
              exact (ih.copied j response hj).advance hnext
            · exact (ih.stored r hr hscope).advance hnext
          · rw [hpc] at hj
            exact (ih.copied j response hj).advance hnext
      · have hrest := Retry.sound_of_run hstart hrun i
        rw [hcall] at hrest
        have hapart := (Program.Guarantees.step hrest hstep).1
        constructor
        · intro r hr hscope
          exact (ih.stored r ((hapart.records r hscope).1 hr) hscope).advance hnext
        · intro j response hj
          obtain ⟨rfl, hpc⟩ | ⟨-, hpc⟩ := P.pc_advance_cases i j (.inr rest') w'
          · rw [hpc] at hj
            cases hj
          · rw [hpc] at hj
            exact (ih.copied j response hj).advance hnext
  | @env P w' _ henv ih =>
      exact ⟨fun r hr hscope => ih.stored r ((henv.records r hscope).1 hr) hscope, ih.copied⟩

end Answers

/-! ## Keys as tickets -/

/-- The request has found no record and has not stored one yet. -/
def runsEffect : ViewPc ⊕ Service Unit → Bool
  | .inl (.effect _ _ _ _ _) => true
  | .inl (.remember _ _ _) => true
  | _ => false

/-- The effect of the request is complete, with its audit entry. -/
def effectDone : ViewPc ⊕ Service Unit → Bool
  | .inl (.remember _ _ _) => true
  | .inl (.executed _) => true
  | .inl (.unremembered _ _) => true
  | _ => false

/-- The discipline: the key fits its column, no lookup finds nothing while another request runs
the effect, and no expired record is discarded. -/
structure Retry.RetriesApart {ι : Type} (R : Retry) (P : ViewPool ι) (i : ι) : Prop where
  keyFits : R.key.length ≤ 255
  lookup : ∀ request actor key, P.pc i = .inl (.lookup request actor key) →
    (∀ r ∈ P.store.db.idempotencyRecords.rows, r.scope ≠ R.scope) →
      ∀ j, runsEffect (P.pc j) = false
  discard : ∀ request actor key record, P.pc i ≠ .inl (.discard request actor key record)

/-- The phase of a request in the ticket protocol, for the one ticket that the key is. -/
def ViewCall.phase : ViewPc ⊕ Service Unit → Ticket.Phase Unit
  | .inl (.start _) => .idle
  | .inl (.lookup _ _ _) => .idle
  | .inl (.clock _ _ _ _) => .idle
  | .inl (.discard _ _ _ _) => .idle
  | .inl (.effect _ _ _ _ _) => .holding ()
  | .inl (.remember _ _ _) => .holding ()
  | .inl (.executed _) => .spent ()
  | .inl _ => .gone
  | .inr _ => .gone

/-- The key has a record. -/
def Retry.Recorded (R : Retry) (w : World) (_ : Unit) : Prop :=
  ∃ r ∈ w.db.idempotencyRecords.rows, r.scope = R.scope

section Tickets

lemma ViewCall.phase_eq_holding_iff {call : ViewPc ⊕ Service Unit} :
    ViewCall.phase call = .holding () ↔ runsEffect call = true := by
  cases call with
  | inl c => cases c <;> simp [ViewCall.phase, runsEffect]
  | inr rest => simp [ViewCall.phase, runsEffect]

lemma ViewCall.phase_enter (request : Request) (key : String) (stage : ℕ)
    (rest : Service Response) : ViewCall.phase (.inl (.enter request key stage rest)) = .gone ∨
      ViewCall.phase (.inl (.enter request key stage rest)) = .holding () := by
  cases rest with
  | done r =>
      cases r with
      | ok response => exact Or.inr rfl
      | error raised => exact Or.inl rfl
  | stmt exec next => exact Or.inr rfl

variable [SerializerFields] [PyText] {R : Retry}

omit [SerializerFields] [PyText] in
lemma Retry.Recorded.of_remembered {data : Json} {response : Response}
    {record : IdempotencyRecord} {w w' : World}
    (h : Remembered R.scope data response.status response.data record w w') : R.Recorded w' () := by
  refine ⟨record, ?_, h.of_scope.1⟩
  rw [h.rows]
  exact List.mem_append_right _ (List.mem_singleton_self record)

omit [SerializerFields] [PyText] in
lemma Apart.recorded_iff {w w' : World} (h : Apart R.scope w w') (k : Unit) :
    R.Recorded w' k ↔ R.Recorded w k := by
  constructor
  · rintro ⟨r, hr, hscope⟩
    exact ⟨r, (h.records r hscope).1 hr, hscope⟩
  · rintro ⟨r, hr, hscope⟩
    exact ⟨r, (h.records r hscope).2 hr, hscope⟩

variable {ι : Type} [DecidableEq ι] {P₀ P : ViewPool ι}

/-- Under the discipline the key is a ticket. -/
theorem Retry.keys_implement_tickets : Ticket.Implements (retrySystem R)
    (R.RetriesApart : ViewPool ι → ι → Prop) (fun P => ∀ i, R.Sound (P.pc i)) ViewCall.phase
      R.Recorded where
  call P i call' w' hsound hok hnext := by
    have hi := hsound i
    obtain ⟨c, c', hpc, rfl, hstep⟩ | ⟨rest, rest', hpc, rfl, hstep⟩ := retrySystem_next hnext
    · have hphase : (ViewCall.phase ∘ P.pc) i = ViewCall.phase (.inl c) := by
        rw [Function.comp_apply, hpc]
      rw [hpc] at hi
      cases hstep with
      | fail raised w hbefore => exact .leave i
      | guard w hactor hkey => exact .stay hphase fun _ => id
      | @unused request actor key w hnone =>
          -- the only place where the ticket is taken, and where the discipline is needed
          rw [hi.1.scope_eq hi.2.1] at hnone
          obtain hgone | hholding := ViewCall.phase_enter request key 0
            (R.endpoint.effect actor request)
          · rw [hgone]
            exact .leave i
          · rw [hholding]
            refine .take i () hphase ?_ fun j hj => ?_
            · rintro ⟨r, hr, hscope⟩
              exact hnone r hr hscope
            · have hruns := ViewCall.phase_eq_holding_iff.1 hj
              rw [hok.lookup request actor key hpc hnone j] at hruns
              cases hruns
      | found hmem hscope => exact .stay hphase fun _ => id
      | expired hexpired => exact .stay hphase fun _ => id
      | replay w => exact .leave i
      | discard request actor key record w => exact absurd hpc (hok.discard _ _ _ _)
      | effect request key stage exec next w =>
          have hrecorded : R.Recorded (exec P.store) = R.Recorded P.store := by
            unfold Retry.Recorded
            rw [hi.records_effect P.store]
          rw [hrecorded]
          obtain hgone | hholding := ViewCall.phase_enter request key (stage + 1) (next P.store)
          · rw [hgone]
            exact .leave i
          · rw [hholding]
            exact .stay hphase fun _ => id
      | @remember request key response record w w' hremembered =>
          rw [hi.1.scope_eq hi.2.1] at hremembered
          refine .spend i () hphase ?_ (Retry.Recorded.of_remembered hremembered)
          rintro k ⟨r, hr, hscope⟩
          refine ⟨r, ?_, hscope⟩
          rw [hremembered.rows]
          exact List.mem_append_left _ hr
      | forget hraised => exact .leave i
    · rw [hpc] at hi
      have hapart := (Program.Guarantees.step hi hstep).1
      refine .stay ?_ fun k => (hapart.recorded_iff k).2
      rw [Function.comp_apply, hpc]
      rfl
  env P w' _ henv := fun k => (henv.recorded_iff k).2

/-- Before a record is stored, nobody else runs the effect, and the insert of the record works. -/
structure Retry.Alone (R : Retry) (P : ViewPool ι) : Prop where
  unrecorded : ∀ i, runsEffect (P.pc i) = true → ¬ R.Recorded P.store ()
  remembered : ∀ i response raised, P.pc i ≠ .inl (.unremembered response raised)

omit [SerializerFields] [PyText] in
lemma Retry.Alone.advance {i : ι} {call' : ViewPc ⊕ Service Unit} {w' : World} (h : R.Alone P)
    (hrecorded : R.Recorded w' () → R.Recorded P.store ())
    (hruns : runsEffect call' = true → ¬ R.Recorded P.store ())
    (hremembered : ∀ response raised, call' ≠ .inl (.unremembered response raised)) :
    R.Alone (P.advance i call' w') := by
  constructor
  · intro j hj
    obtain ⟨-, hpc⟩ | ⟨-, hpc⟩ := P.pc_advance_cases i j call' w'
    · rw [hpc] at hj
      exact fun hw' => hruns hj (hrecorded hw')
    · rw [hpc] at hj
      exact fun hw' => h.unrecorded j hj (hrecorded hw')
  · intro j response raised hj
    obtain ⟨-, hpc⟩ | ⟨-, hpc⟩ := P.pc_advance_cases i j call' w'
    · rw [hpc] at hj
      exact hremembered response raised hj
    · rw [hpc] at hj
      exact h.remembered j response raised hj

omit [SerializerFields] [PyText] [DecidableEq ι] in
/-- Nobody has run the effect yet. -/
lemma Retry.alone_of_notStarted (hstart : ∀ i, R.NotStarted (P.pc i)) : R.Alone P := by
  constructor
  · intro i hi
    obtain ⟨request, hpc, -⟩ | ⟨rest, hpc, -⟩ := (hstart i).cases
    · rw [hpc] at hi
      cases hi
    · rw [hpc] at hi
      cases hi
  · intro i response raised hi
    have hi' := hstart i
    rw [hi] at hi'
    cases hi'

omit [SerializerFields] [PyText] in
/-- The record is stored by the only request that runs the effect. -/
lemma Retry.Alone.remember {i : ι} {response : Response} {w' : World} (h : R.Alone P)
    (hother : ∀ j ≠ i, ¬ runsEffect (P.pc j) = true) :
    R.Alone (P.advance i (.inl (.executed response)) w') := by
  constructor
  · intro j hj
    obtain ⟨-, hpc⟩ | ⟨hne, hpc⟩ := P.pc_advance_cases i j (.inl (.executed response)) w'
    · rw [hpc] at hj
      cases hj
    · rw [hpc] at hj
      exact absurd hj (hother j hne)
  · intro j response' raised hj
    obtain ⟨-, hpc⟩ | ⟨-, hpc⟩ := P.pc_advance_cases i j (.inl (.executed response)) w'
    · rw [hpc] at hj
      cases hj
    · rw [hpc] at hj
      exact h.remembered j response' raised hj

/-- Along every disciplined run. -/
theorem Retry.alone_of_run (hstart : ∀ i, R.NotStarted (P₀.pc i))
    (hrun : (retrySystem R).Run R.RetriesApart P₀ P) :
    Ticket.Exclusive (ViewCall.phase ∘ P.pc) (R.Recorded P.store) ∧ R.Alone P := by
  have hphase : ∀ i, ViewCall.phase (P₀.pc i) = .idle ∨ ViewCall.phase (P₀.pc i) = .gone := by
    intro i
    obtain ⟨request, hpc, -⟩ | ⟨rest, hpc, -⟩ := (hstart i).cases
    · rw [hpc]
      exact Or.inl rfl
    · rw [hpc]
      exact Or.inr rfl
  have hexclusive : ∀ {P : ViewPool ι}, (retrySystem R).Run R.RetriesApart P₀ P →
      Ticket.Exclusive (ViewCall.phase ∘ P.pc) (R.Recorded P.store) := fun hrun =>
    Retry.keys_implement_tickets.exclusive (fun _ => Retry.sound_of_run hstart) hphase hrun
  refine ⟨hexclusive hrun, ?_⟩
  induction hrun with
  | refl => exact Retry.alone_of_notStarted hstart
  | @call P i call' w' hrun hok hnext ih =>
      have hi := Retry.sound_of_run hstart hrun i
      obtain ⟨c, c', hpc, rfl, hstep⟩ | ⟨rest, rest', hpc, rfl, hstep⟩ := retrySystem_next hnext
      · rw [hpc] at hi
        cases hstep with
        | fail raised w hbefore => exact ih.advance id nofun nofun
        | guard w hactor hkey => exact ih.advance id nofun nofun
        | unused hnone =>
            rw [hi.1.scope_eq hi.2.1] at hnone
            refine ih.advance id (fun _ => ?_) fun _ _ => ViewPc.enter_ne_unremembered
            rintro ⟨r, hr, hscope⟩
            exact hnone r hr hscope
        | found hmem hscope => exact ih.advance id nofun nofun
        | expired hexpired => exact ih.advance id nofun nofun
        | replay w => exact ih.advance id nofun nofun
        | discard request actor key record w => exact absurd hpc (hok.discard _ _ _ _)
        | effect request key stage exec next w =>
            have hunrecorded := ih.unrecorded i (by rw [hpc]; rfl)
            refine ih.advance ?_ (fun _ => hunrecorded) fun _ _ => ViewPc.enter_ne_unremembered
            unfold Retry.Recorded
            rw [hi.records_effect P.store]
            exact id
        | @remember request key response record w w' hremembered =>
            -- the other requests do not run the effect: the ticket has one holder
            refine ih.remember fun j hne hj => hne ?_
            refine (hexclusive hrun).one_holder j i () ?_ ?_
            · exact ViewCall.phase_eq_holding_iff.2 hj
            · rw [Function.comp_apply, hpc]
              rfl
        | @forget request key response raised w hraised =>
            have hunrecorded := ih.unrecorded i (by rw [hpc]; rfl)
            obtain ⟨record, w', hstore⟩ := @storeResponse_run R.scope request.data P.store _
              response.data R.endpoint.action_length hok.keyFits hi.2.2
              fun r hr hscope => hunrecorded ⟨r, hr, hscope⟩
            unfold rememberResponse at hraised
            rw [hi.1.scope_eq hi.2.1] at hraised
            cases hstore.symm.trans hraised
      · rw [hpc] at hi
        have hapart := (Program.Guarantees.step hi hstep).1
        exact ih.advance (hapart.recorded_iff ()).1 nofun nofun
  | @env P w' _ henv ih =>
      exact ⟨fun i hi hw' => ih.unrecorded i hi ((henv.recorded_iff ()).1 hw'), ih.remembered⟩

/-- Under the discipline at most one request completes the effect. -/
theorem Retry.one_effect_of_run (hstart : ∀ i, R.NotStarted (P₀.pc i))
    (hrun : (retrySystem R).Run R.RetriesApart P₀ P) {i j : ι} (hi : effectDone (P.pc i) = true)
    (hj : effectDone (P.pc j) = true) : i = j := by
  obtain ⟨hexclusive, halone⟩ := Retry.alone_of_run hstart hrun
  have hcases : ∀ i, effectDone (P.pc i) = true →
      (ViewCall.phase ∘ P.pc) i = .holding () ∨ (ViewCall.phase ∘ P.pc) i = .spent () := by
    intro i hi
    rw [Function.comp_apply]
    cases hpc : P.pc i with
    | inl c =>
        rw [hpc] at hi
        cases c with
        | remember request key response => exact Or.inl rfl
        | executed response => exact Or.inr rfl
        | unremembered response raised => exact absurd hpc (halone.remembered i response raised)
        | _ => cases hi
    | inr rest =>
        rw [hpc] at hi
        cases hi
  obtain hi | hi := hcases i hi
  · obtain hj | hj := hcases j hj
    · exact hexclusive.one_holder i j () hi hj
    · exact absurd hj (hexclusive.no_late_holder i j () hi)
  · obtain hj | hj := hcases j hj
    · exact absurd hi (hexclusive.no_late_holder j i () hj)
    · exact hexclusive.one_spender i j () hi hj

end Tickets

/-! ## New staff members -/

/-- The request has executed the first statement of its effect. -/
def hasBegun : ViewPc ⊕ Service Unit → Bool
  | .inl (.effect _ _ stage _ _) => decide (0 < stage)
  | call => effectDone call

lemma hasBegun_of_effectDone {call : ViewPc ⊕ Service Unit} (h : effectDone call = true) :
    hasBegun call = true := by
  cases call with
  | inl c =>
      cases c with
      | effect request key stage exec next => cases h
      | _ => exact h
  | inr rest => cases h

section Creators

variable [SerializerFields] [PyText] {R : Retry}

/-- The address that the body asks for belongs to a staff member. -/
def Retry.EmailTaken (R : Retry) (w : World) : Prop :=
  ∃ email password role, createStaffSerializer R.data = .ok (email, password, role) ∧
    ∃ s ∈ w.db.staff.rows, s.email = normalizeEmail email

lemma Retry.EmailTaken.mono {w w' : World} (h : KeepsStaffEmails w w') (ht : R.EmailTaken w) :
    R.EmailTaken w' := by
  obtain ⟨email, password, role, hdata, s, hs, hemail⟩ := ht
  obtain ⟨s', hs', hemail'⟩ := h s hs
  exact ⟨email, password, role, hdata, s', hs', hemail'.trans hemail⟩

/-- The first statement takes the address, which was free, or fails. -/
lemma Retry.InsertsFirst.step {exec : World → World} {next : World → Service Response}
    (h : R.InsertsFirst (.stmt exec next)) (w : World) :
    (¬ R.EmailTaken w ∧ R.EmailTaken (exec w)) ∨ ∃ raised, next w = .done (.error raised) := by
  obtain ⟨email, password, role, rest, hdata, heffect⟩ := h
  have hstep := congrArg (fun p : Service Response => p.step w) heffect
  rw [Program.step_exec_bind] at hstep
  have hnext := congrArg Prod.fst (Option.some.inj hstep)
  have hexec := congrArg Prod.snd (Option.some.inj hstep)
  dsimp only at hnext hexec
  cases hrun : (insertStaff email password role).run w with
  | error raised =>
      rw [Tx.exec_error hrun] at hnext
      exact Or.inr ⟨raised, hnext⟩
  | ok r =>
      obtain ⟨staff, w'⟩ := r
      rw [Tx.exec_ok hrun] at hexec
      obtain ⟨t, hinsert, hw'⟩ := Objects.create_ok hrun
      obtain ⟨hstaff, hrows, -, -, hfree⟩ := Table.insert_spec hinsert
      left
      constructor
      · rintro ⟨email', password', role', hdata', s, hs, hemail⟩
        cases hdata'.symm.trans hdata
        have hconflict := hfree s hs
        rw [hstaff] at hconflict
        exact absurd hemail (of_decide_eq_false hconflict)
      · rw [hexec, hw']
        refine ⟨email, password, role, hdata, staff, ?_, ?_⟩
        · change staff ∈ t.rows
          rw [hrows]
          exact List.mem_append_right _ (List.mem_singleton_self staff)
        · rw [hstaff]

/-- An effect that is about to begin has not begun. -/
lemma hasBegun_enter (request : Request) (actor : StaffInstance) (key : String) :
    hasBegun (.inl (.enter request key 0 (R.endpoint.effect actor request))) = false := by
  have hends := R.endpoint.effect_endsWith actor request
  cases heffect : R.endpoint.effect actor request with
  | done r =>
      rw [heffect] at hends
      cases r with
      | ok response => exact hends.elim
      | error raised => rfl
  | stmt exec next => rfl

/-- The effect of a request is done exactly when its audit entry is written. -/
theorem ViewStep.audited {c c' : ViewPc} {w w' : World} (h : ViewStep R.endpoint c w c' w')
    (hc : R.Sound (.inl c)) :
    (w'.db.auditLog = w.db.auditLog ∧ effectDone (.inl c') = effectDone (.inl c)) ∨
      (effectDone (.inl c) = false ∧ effectDone (.inl c') = true ∧
        ∃ entry : AuditLogEntry, entry.action = R.endpoint.action ∧
          w'.db.auditLog.rows = w.db.auditLog.rows ++ [entry]) := by
  have henter : ∀ request actor key,
      effectDone (.inl (.enter request key 0 (R.endpoint.effect actor request))) = false := by
    intro request actor key
    rw [← Bool.not_eq_true]
    intro hdone
    have hbegun := hasBegun_of_effectDone hdone
    rw [hasBegun_enter] at hbegun
    cases hbegun
  cases h with
  | unused hnone => exact Or.inl ⟨rfl, henter _ _ _⟩
  | discard request actor key record w => exact Or.inl ⟨rfl, henter _ _ _⟩
  | effect request key stage exec next w =>
      obtain ⟨response, hnext, haudits⟩ | ⟨hsilent, raised, hnext⟩ |
        ⟨hsilent, exec', next', hnext, -⟩ := hc.effect w
      · rw [hnext]
        exact Or.inr ⟨rfl, rfl, haudits.entry⟩
      · rw [hnext]
        exact Or.inl ⟨hsilent.auditLog, rfl⟩
      · rw [hnext]
        exact Or.inl ⟨hsilent.auditLog, rfl⟩
  | remember hremembered => exact Or.inl ⟨hremembered.auditLog, rfl⟩
  | fail raised w hbefore =>
      refine Or.inl ⟨rfl, ?_⟩
      cases c with
      | start request => rfl
      | lookup request actor key => rfl
      | clock request actor key record => rfl
      | discard request actor key record => rfl
      | _ => cases hbefore
  | _ => exact Or.inl ⟨rfl, rfl⟩

/-- A step loses no staff address. -/
lemma ViewStep.emails {c c' : ViewPc} {w w' : World} (h : ViewStep R.endpoint c w c' w')
    (hc : R.Sound (.inl c)) : KeepsStaffEmails w w' := by
  have hrefl : ∀ w, KeepsStaffEmails w w := fun w => (refl_of Silent w).emails
  cases h with
  | effect request key stage exec next w =>
      obtain ⟨response, -, haudits⟩ | ⟨hsilent, -⟩ | ⟨hsilent, -⟩ := hc.effect w
      · exact haudits.emails
      · exact hsilent.emails
      · exact hsilent.emails
  | remember hremembered =>
      intro s hs
      rw [← hremembered.staff] at hs
      exact ⟨s, hs, rfl⟩
  | discard request actor key record w => exact fun s hs => ⟨s, hs, rfl⟩
  | _ => exact hrefl w

/-- A request begins its effect by taking the address. -/
lemma ViewStep.begins {c c' : ViewPc} {w w' : World} (h : ViewStep R.endpoint c w c' w')
    (hc : R.Sound (.inl c)) (hendpoint : R.endpoint = .createStaff)
    (hbegun : hasBegun (.inl c') = true) :
    hasBegun (.inl c) = true ∨ (¬ R.EmailTaken w ∧ R.EmailTaken w') := by
  cases h with
  | unused hnone =>
      rw [hasBegun_enter] at hbegun
      cases hbegun
  | discard request actor key record w =>
      rw [hasBegun_enter] at hbegun
      cases hbegun
  | effect request key stage exec next w =>
      by_cases hstage : stage = 0
      · obtain htaken | ⟨raised, hnext⟩ := (hc.2.2.2 hendpoint hstage).step w
        · exact Or.inr htaken
        · rw [hnext] at hbegun
          cases hbegun
      · exact Or.inl (decide_eq_true (Nat.pos_of_ne_zero hstage))
  | remember hremembered => exact Or.inl rfl
  | forget hraised => exact Or.inl rfl
  | _ => cases hbegun

variable {ι : Type} [DecidableEq ι] {ok : ViewPool ι → ι → Prop} {P₀ P : ViewPool ι}

/-- The address belongs to the one request that has begun its effect. -/
structure Retry.OneCreator (R : Retry) (P : ViewPool ι) : Prop where
  taken : ∀ i, hasBegun (P.pc i) = true → R.EmailTaken P.store
  one : ∀ i j, hasBegun (P.pc i) = true → hasBegun (P.pc j) = true → i = j

lemma Retry.OneCreator.advance {i : ι} {call' : ViewPc ⊕ Service Unit} {w' : World}
    (h : R.OneCreator P) (hemails : KeepsStaffEmails P.store w')
    (hbegins : hasBegun call' = true →
      hasBegun (P.pc i) = true ∨ (¬ R.EmailTaken P.store ∧ R.EmailTaken w')) :
    R.OneCreator (P.advance i call' w') := by
  -- a request that has begun after the step had begun before it, or is `i` and took the address
  have hcases : ∀ j, hasBegun ((P.advance i call' w').pc j) = true → hasBegun (P.pc j) = true ∨
      (j = i ∧ ¬ R.EmailTaken P.store ∧ R.EmailTaken w') := by
    intro j hj
    obtain ⟨rfl, hpc⟩ | ⟨-, hpc⟩ := P.pc_advance_cases i j call' w'
    · rw [hpc] at hj
      obtain hbegun | htaken := hbegins hj
      · exact Or.inl hbegun
      · exact Or.inr ⟨rfl, htaken⟩
    · rw [hpc] at hj
      exact Or.inl hj
  constructor
  · intro j hj
    obtain hj | ⟨-, -, htaken⟩ := hcases j hj
    · exact (h.taken j hj).mono hemails
    · exact htaken
  · intro j k hj hk
    obtain hj' | ⟨hji, hfree, -⟩ := hcases j hj
    · obtain hk' | ⟨-, hfree, -⟩ := hcases k hk
      · exact h.one j k hj' hk'
      · exact absurd (h.taken j hj') hfree
    · obtain hk' | ⟨hki, -, -⟩ := hcases k hk
      · exact absurd (h.taken k hk') hfree
      · rw [hji, hki]

/-- Along every run of `CreateStaffView`, at most one request has begun its effect. -/
theorem Retry.oneCreator_of_run (hendpoint : R.endpoint = .createStaff)
    (hstart : ∀ i, R.NotStarted (P₀.pc i)) (hrun : (retrySystem R).Run ok P₀ P) :
    R.OneCreator P := by
  have hstart' : ∀ i, hasBegun (P₀.pc i) = false := by
    intro i
    obtain ⟨request, hpc, -⟩ | ⟨rest, hpc, -⟩ := (hstart i).cases
    · rw [hpc]
      rfl
    · rw [hpc]
      rfl
  induction hrun with
  | refl =>
      constructor
      · intro i hi
        rw [hstart' i] at hi
        cases hi
      · intro i j hi
        rw [hstart' i] at hi
        cases hi
  | @call P i call' w' hrun _ hnext ih =>
      have hi := Retry.sound_of_run hstart hrun i
      obtain ⟨c, c', hpc, rfl, hstep⟩ | ⟨rest, rest', hpc, rfl, hstep⟩ := retrySystem_next hnext
      · rw [hpc] at hi
        refine ih.advance (hstep.emails hi) fun hbegun => ?_
        rw [hpc]
        exact hstep.begins hi hendpoint hbegun
      · rw [hpc] at hi
        exact ih.advance (Program.Guarantees.step hi hstep).1.emails nofun
  | @env P w' _ henv ih => exact ⟨fun i hi => (ih.taken i hi).mono henv.emails, ih.one⟩

end Creators

/-! ## One effect and one answer -/

/-- At most one request completes the effect, and all requests that answer, answer the same. -/
structure ExecutedOnce {ι : Type} (P : ViewPool ι) : Prop where
  one_effect : ∀ i j, effectDone (P.pc i) = true → effectDone (P.pc j) = true → i = j
  one_answer : ∀ i j response response', answer (P.pc i) = some response →
    answer (P.pc j) = some response' → response = response'

/-- The discipline, which `CreateStaffView` can do without. -/
def Retry.Disciplined {ι : Type} (R : Retry) (P : ViewPool ι) (i : ι) : Prop :=
  R.endpoint = .createStaff ∨ R.RetriesApart P i

section Main

variable [SerializerFields] [PyText] {R : Retry} {ι : Type} [DecidableEq ι] {P₀ P : ViewPool ι}

omit [SerializerFields] [PyText] [DecidableEq ι] in
/-- Every answer is that of a request that ran the effect. -/
lemma Retry.Answered.executed_of_answer (h : R.Answered P) {i : ι} {response : Response}
    (hi : answer (P.pc i) = some response) : ExecutedWith P response := by
  cases hpc : P.pc i with
  | inl c =>
      rw [hpc] at hi
      cases c with
      | executed response' =>
          cases hi
          exact ⟨i, hpc⟩
      | replayed response' =>
          cases hi
          refine h.copied i _ ?_
          rw [hpc]
          rfl
      | _ => cases hi
  | inr rest =>
      rw [hpc] at hi
      cases hi

/-- In every interleaving of retries in which the retries that run the effect of a resource
endpoint keep apart, at most one completes the effect, and all answers are the same. -/
theorem executedOnce_of_retriesApart (hstart : ∀ i, R.NotStarted (P₀.pc i))
    (hunused : ∀ r ∈ P₀.store.db.idempotencyRecords.rows, r.scope ≠ R.scope)
    (hrun : (retrySystem R).Run R.Disciplined P₀ P) : ExecutedOnce P := by
  have hone : ∀ i j, effectDone (P.pc i) = true → effectDone (P.pc j) = true → i = j := by
    intro i j hi hj
    by_cases hendpoint : R.endpoint = .createStaff
    · have hcreator := Retry.oneCreator_of_run hendpoint hstart hrun
      exact hcreator.one i j (hasBegun_of_effectDone hi) (hasBegun_of_effectDone hj)
    · have hrun' : (retrySystem R).Run R.RetriesApart P₀ P :=
        hrun.mono fun _ _ hok => hok.resolve_left hendpoint
      exact Retry.one_effect_of_run hstart hrun' hi hj
  refine ⟨hone, fun i j response response' hi hj => ?_⟩
  have hanswered := Retry.answered_of_run hstart hunused hrun
  obtain ⟨k, hk⟩ := hanswered.executed_of_answer hi
  obtain ⟨l, hl⟩ := hanswered.executed_of_answer hj
  have heq : k = l := by
    refine hone k l ?_ ?_
    · rw [hk]
      rfl
    · rw [hl]
      rfl
  rw [heq, hl] at hk
  cases hk
  rfl

end Main

/-! ## Retries of a disabling -/

section Example

attribute [local instance] plainText plainFields

/-- An administrator disables customer 0. -/
def fraudRetry : Retry where
  endpoint := .disableCustomer 0
  actorId := 0
  key := "key"
  data := .obj [("reason", .str "fraud")]

def fraudRequest : Request where
  user := administrator.staff
  idempotencyKey := some "key"
  data := .obj [("reason", .str "fraud")]
  context := { remoteAddr := none, id := 0 }

/-- The request and a retry of it. -/
def twoRetries : ViewPool (Fin 2) where
  store := ((insertCustomer "a@example.com").exec administeredWorld).2
  pc _ := .inl (.start fraudRequest)

lemma notStarted_twoRetries (i : Fin 2) : fraudRetry.NotStarted (twoRetries.pc i) :=
  ⟨rfl, rfl, rfl⟩

lemma unused_twoRetries :
    ∀ r ∈ twoRetries.store.db.idempotencyRecords.rows, r.scope ≠ fraudRetry.scope := by
  intro r hr
  cases hr

/-- The check of a step that `RetriesApart` asks for, on a pool of two requests. -/
def checkRetry (P : ViewPool (Fin 2)) (i : Fin 2) : Bool :=
  match P.pc i with
  | .inl (.lookup _ _ _) =>
    decide ((∀ r ∈ P.store.db.idempotencyRecords.rows, r.scope ≠ fraudRetry.scope) →
      ∀ j, runsEffect (P.pc j) = false)
  | .inl (.discard _ _ _ _) => false
  | _ => true

lemma disciplined_of_check {P : ViewPool (Fin 2)} {i : Fin 2} (h : checkRetry P i = true) :
    fraudRetry.Disciplined P i := by
  unfold checkRetry at h
  refine Or.inr ⟨by decide, fun request actor key hpc => ?_, fun request actor key record hpc => ?_⟩
  · rw [hpc] at h
    exact of_decide_eq_true h
  · rw [hpc] at h
    cases h

/-- One request after the other: the first runs the effect, the second is answered from its
record. -/
theorem executedOnce_of_sequential_retries :
    ∃ P, (retrySystem fraudRetry).Run fraudRetry.Disciplined twoRetries P ∧
      decide (effectDone (P.pc 0) = true ∧ answer (P.pc 1) = some { status := 204 }) = true ∧
      ExecutedOnce P := by
  have h : ((retrySystem fraudRetry).execute checkRetry twoRetries
      [0, 0, 0, 0, 0, 0, 0, 1, 1, 1]).map (fun P => decide (effectDone (P.pc 0) = true ∧
        answer (P.pc 1) = some { status := 204 })) = some true := by decide
  obtain ⟨P, hrun, hp⟩ := System.exists_run_of_execute (fun _ _ => disciplined_of_check) h
  exact ⟨P, hrun, hp, executedOnce_of_retriesApart notStarted_twoRetries unused_twoRetries hrun⟩

/-- Two requests whose lookups both find nothing both disable the customer. -/
theorem not_executedOnce :
    ¬ ∀ (R : Retry) (P₀ P : ViewPool (Fin 2)), (∀ i, R.NotStarted (P₀.pc i)) →
      (∀ r ∈ P₀.store.db.idempotencyRecords.rows, r.scope ≠ R.scope) →
        (retrySystem R).Run (fun _ _ => True) P₀ P → ExecutedOnce P := by
  intro hclaim
  have h : ((retrySystem fraudRetry).execute (fun _ _ => true) twoRetries
      [0, 1, 0, 1, 0, 0, 0, 0, 0, 1, 1, 1, 1, 1]).map
        (fun P => effectDone (P.pc 0) && effectDone (P.pc 1)) = some true := by decide
  obtain ⟨P, hrun, hp⟩ := System.exists_run_of_execute (fun _ _ _ => trivial) h
  obtain ⟨hfirst, hsecond⟩ := Bool.and_eq_true_iff.1 hp
  have hexecuted := hclaim fraudRetry twoRetries P notStarted_twoRetries unused_twoRetries hrun
  have heq : (0 : Fin 2) = 1 := hexecuted.one_effect 0 1 hfirst hsecond
  exact absurd heq (by decide)

end Example

end BePyEco
