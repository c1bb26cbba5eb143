import BePyEco.Library.Interleaving

/-!
# Recording what programs commit

A `Recorded` store carries a log of what was committed, newest first.  A program becomes a
recording one when some of its statements write an entry (`Program.recording`) and all others
none (`Program.silently`).  `Program.Records` says that a recording program is the program it
records: no program sees the log, so every interleaving of programs is one of their recordings
(`exists_recorded_run`).

`Program.Relies R M` is the rely-guarantee rule for programs: as long as everybody else moves the
store along `R`, every statement of the program moves it along `M`.  `System.Run.holds_of_relies`
concludes what holds in every store that a pool of such programs reaches.

`Program.Delivers due` says that what an entry makes due is delivered by the statement that writes
it or by the next one of the program; `System.Run.delivers_of_relies` concludes what is delivered
in every store of a run.

`Justified` says that every entry of a log is justified by those before it.

`Replays` is the relation between two recorded stores in which the rows of the later one are those
of the earlier one with the entries in between applied, oldest first.
-/

namespace BePyEco.Library

/-- A store and what was committed to it, newest first. -/
structure Recorded (σ W : Type) where
  store : σ
  log : List W := []

variable {σ W ε α β : Type}

/-- An entry that was written is in the log, beside all earlier ones. -/
lemma Recorded.mem_of_cons {s s' : Recorded σ W} {entry : W} (h : s'.log = entry :: s.log) :
    entry ∈ s'.log ∧ ∀ earlier ∈ s.log, earlier ∈ s'.log := by
  rw [h]
  exact ⟨List.mem_cons_self, fun _ => List.mem_cons_of_mem _⟩

/-! ## Recording programs -/

/-- The transaction, with the entries that its commit writes. -/
def Tx.recording (x : Tx σ ε α) (entries : α → σ → List W) : Tx (Recorded σ W) ε α := ⟨fun s =>
  match x.run s.store with
  | .ok (a, s') => .ok (a, { store := s', log := entries a s.store ++ s.log })
  | .error e => .error e⟩

lemma Tx.recording_ok {x : Tx σ ε α} {entries : α → σ → List W} {s s' : Recorded σ W} {a : α}
    (h : (x.recording entries).run s = .ok (a, s')) :
    x.run s.store = .ok (a, s'.store) ∧ s'.log = entries a s.store ++ s.log := by
  simp only [Tx.recording] at h
  split at h
  · rename_i heq
    cases h
    exact ⟨heq, rfl⟩
  · cases h

namespace Program

/-- A transaction as one statement, with the entries that its commit writes. -/
def recording (x : Tx σ ε α) (entries : α → σ → List W) : Program (Recorded σ W) ε α :=
  exec (x.recording entries)

/-- A program that writes no entry. -/
def silently : Program σ ε α → Program (Recorded σ W) ε α
  | done r => done r
  | stmt x next => stmt (fun s => { s with store := x s.store }) fun s => (next s.store).silently

lemma silently_bind (p : Program σ ε α) (k : α → Program σ ε β) :
    ((p >>= k).silently : Program (Recorded σ W) ε β) = p.silently >>= fun a => (k a).silently := by
  induction p with
  | done r =>
      cases r with
      | ok a => rfl
      | error e => rfl
  | stmt x next ih =>
      refine congrArg (stmt _) (funext fun s => ?_)
      exact ih s.store

/-- The recording program is the program, with a log that it does not look at. -/
def Records : Program (Recorded σ W) ε α → Program σ ε α → Prop
  | done r, p => p = done r
  | stmt _ _, done _ => False
  | stmt x next, stmt x' next' =>
    ∀ s, (x s).store = x' s.store ∧ (next s).Records (next' s.store)

lemma records_done (r : Except (Raised ε) α) : (done r : Program (Recorded σ W) ε α).Records
    (done r : Program σ ε α) := rfl

lemma records_require (c : Bool) (e : ε) : (require c e : Program (Recorded σ W) ε Unit).Records
    (require c e : Program σ ε Unit) := by
  cases c with
  | true => rfl
  | false => rfl

lemma records_silently (p : Program σ ε α) :
    (p.silently : Program (Recorded σ W) ε α).Records p := by
  induction p with
  | done r => rfl
  | stmt x next ih => exact fun s => ⟨rfl, ih s.store⟩

lemma records_recording (x : Tx σ ε α) (entries : α → σ → List W) :
    (recording x entries).Records (exec x) := by
  intro s
  have hexec : ((x.recording entries).exec s).2.store = (x.exec s.store).2 ∧
      ((x.recording entries).exec s).1 = (x.exec s.store).1 := by
    simp only [Tx.exec, Tx.recording]
    cases x.run s.store with
    | ok r => exact ⟨rfl, rfl⟩
    | error e => exact ⟨rfl, rfl⟩
  exact ⟨hexec.1, congrArg done hexec.2.symm⟩

lemma Records.bind {p : Program (Recorded σ W) ε α} {p' : Program σ ε α}
    {k : α → Program (Recorded σ W) ε β} {k' : α → Program σ ε β} (hp : p.Records p')
    (hk : ∀ a, (k a).Records (k' a)) : (p >>= k).Records (p' >>= k') := by
  induction p generalizing p' with
  | done r =>
      have heq : p' = done r := hp
      rw [heq]
      cases r with
      | ok a => exact hk a
      | error e => rfl
  | stmt x next ih =>
      cases p' with
      | done r => exact hp.elim
      | stmt x' next' => exact fun s => ⟨(hp s).1, ih s (hp s).2⟩

/-- A statement of the program is one of its recording. -/
lemma Records.step {p : Program (Recorded σ W) ε α} {p₁ p₂ : Program σ ε α} {s : Recorded σ W}
    {s₂ : σ} (hp : p.Records p₁) (h : p₁.step s.store = some (p₂, s₂)) :
    ∃ p' s', p.step s = some (p', s') ∧ s'.store = s₂ ∧ p'.Records p₂ := by
  cases p with
  | done r =>
      have heq : p₁ = done r := hp
      rw [heq] at h
      cases h
  | stmt x next =>
      cases p₁ with
      | done r => cases h
      | stmt x' next' =>
          cases h
          exact ⟨next s, x s, rfl, (hp s).1, (hp s).2⟩

/-! ## Relying -/

/-- While everything else moves the store along `R`, every statement of the program moves it along
`M`, and `post` holds when the program returns. -/
def Relies (R M : σ → σ → Prop) (post : α → σ → Prop) : Program σ ε α → σ → Prop
  | done (.ok a), s => post a s
  | done (.error _), _ => True
  | stmt x next, s => ∀ s', R s s' → M s' (x s') ∧ (next s').Relies R M post (x s')

variable {R M : σ → σ → Prop} {post : α → σ → Prop}

lemma Relies.bind {p : Program σ ε α} {k : α → Program σ ε β} {post' : β → σ → Prop} {s : σ}
    (hp : p.Relies R M post s) (hk : ∀ a s, post a s → (k a).Relies R M post' s) :
    (p >>= k).Relies R M post' s := by
  induction p generalizing s with
  | done r =>
      cases r with
      | ok a => exact hk a s hp
      | error e => trivial
  | stmt x next ih => exact fun s' hs' => ⟨(hp s' hs').1, ih s' (hp s' hs').2⟩

/-- A program keeps what everybody's moves keep. -/
lemma Relies.keeping {I : σ → Prop} {p : Program σ ε α} {s : σ} (hp : p.Relies R M post s)
    (hs : I s) (hR : ∀ s s', I s → R s s' → I s') (hM : ∀ s s', I s → M s s' → I s') :
    p.Relies R M (fun a s => post a s ∧ I s) s := by
  induction p generalizing s with
  | done r =>
      cases r with
      | ok a => exact ⟨hp, hs⟩
      | error e => trivial
  | stmt x next ih =>
      intro s' hs'
      obtain ⟨hmove, hnext⟩ := hp s' hs'
      exact ⟨hmove, ih s' hnext (hM _ _ (hR _ _ hs hs') hmove)⟩

lemma relies_require {c : Bool} {e : ε} {post : Unit → σ → Prop} {s : σ}
    (h : c = true → post () s) : (require c e : Program σ ε Unit).Relies R M post s := by
  by_cases hc : c = true
  · rw [hc]
    exact h hc
  · rw [Bool.not_eq_true] at hc
    rw [hc]
    trivial

lemma relies_exec [Std.Refl M] {x : Tx σ ε α} {s : σ}
    (h : ∀ s₁ a s₂, R s s₁ → x.run s₁ = .ok (a, s₂) → M s₁ s₂ ∧ post a s₂) :
    (exec x).Relies R M post s := by
  intro s₁ hs₁
  change M s₁ (x.exec s₁).2 ∧ (done (x.exec s₁).1 : Program σ ε α).Relies R M post (x.exec s₁).2
  cases hx : x.run s₁ with
  | ok r =>
      rw [Tx.exec_ok hx]
      exact h s₁ r.1 r.2 hs₁ hx
  | error e =>
      rw [Tx.exec_error hx]
      exact ⟨refl_of M s₁, trivial⟩

lemma relies_recording {R M : Recorded σ W → Recorded σ W → Prop} [Std.Refl M]
    {post : α → Recorded σ W → Prop} {x : Tx σ ε α} {entries : α → σ → List W} {s : Recorded σ W}
    (h : ∀ s₁ a w, R s s₁ → x.run s₁.store = .ok (a, w) →
      M s₁ ⟨w, entries a s₁.store ++ s₁.log⟩ ∧ post a ⟨w, entries a s₁.store ++ s₁.log⟩) :
    (recording x entries).Relies R M post s := by
  refine relies_exec fun s₁ a s₂ hs₁ hrun => ?_
  obtain ⟨hx, hlog⟩ := Tx.recording_ok hrun
  obtain ⟨w, log⟩ := s₂
  dsimp only at hx hlog
  rw [hlog]
  exact h s₁ a w hs₁ hx

lemma relies_silently_exec {R M : Recorded σ W → Recorded σ W → Prop} [Std.Refl M]
    {post : α → Recorded σ W → Prop} {x : Tx σ ε α} {s : Recorded σ W}
    (h : ∀ s₁ a w, R s s₁ → x.run s₁.store = .ok (a, w) →
      M s₁ { s₁ with store := w } ∧ post a { s₁ with store := w }) :
    (exec x).silently.Relies R M post s := by
  intro s₁ hs₁
  change M s₁ { s₁ with store := (x.exec s₁.store).2 } ∧
    (done (x.exec s₁.store).1 : Program (Recorded σ W) ε α).Relies R M post
      { s₁ with store := (x.exec s₁.store).2 }
  cases hx : x.run s₁.store with
  | ok r =>
      rw [Tx.exec_ok hx]
      exact h s₁ r.1 r.2 hs₁ hx
  | error e =>
      rw [Tx.exec_error hx]
      exact ⟨refl_of M s₁, trivial⟩

lemma relies_silently {R M : Recorded σ W → Recorded σ W → Prop} {G : σ → σ → Prop}
    {p : Program σ ε α} (hp : p.Guarantees G) (hG : ∀ s w, G s.store w → M s { s with store := w })
    (s : Recorded σ W) : p.silently.Relies R M (fun _ _ => True) s := by
  induction p generalizing s with
  | done r =>
      cases r with
      | ok a => trivial
      | error e => trivial
  | stmt x next ih =>
      exact fun s' _ => ⟨hG s' _ (hp s'.store).1, ih s'.store (hp s'.store).2 _⟩

/-- A program that guarantees its moves need not rely on anything. -/
lemma Guarantees.relies {p : Program σ ε α} (hp : p.Guarantees M) (s : σ) :
    p.Relies R M (fun _ _ => True) s := by
  induction p generalizing s with
  | done r =>
      cases r with
      | ok a => trivial
      | error e => trivial
  | stmt x next ih => exact fun s' _ => ⟨(hp s').1, ih s' (hp s').2 _⟩

/-- What a program relies on may happen before it goes on. -/
lemma Relies.mono [IsTrans σ R] {p : Program σ ε α} {s s' : σ}
    (hp : p.Relies R M (fun _ _ => True) s) (h : R s s') :
    p.Relies R M (fun _ _ => True) s' := by
  cases p with
  | done r =>
      cases r with
      | ok a => trivial
      | error e => trivial
  | stmt x next => exact fun s₁ hs₁ => hp s₁ (trans_of R h hs₁)

lemma Relies.step {p p' : Program σ ε α} {s s' : σ} [Std.Refl R] (hp : p.Relies R M post s)
    (h : p.step s = some (p', s')) : M s s' ∧ p'.Relies R M post s' := by
  cases p with
  | done r => cases h
  | stmt x next =>
      cases h
      exact hp s (refl_of R s)

/-! ## Delivering -/

/-- Whatever the store, the next statement of the program makes `done` true. -/
def Next (done : σ → Prop) : Program σ ε α → Prop
  | .done _ => False
  | stmt x _ => ∀ s, done (x s)

/-- What an entry makes due, its statement or the one after it delivers. -/
def Delivers (due : W → Recorded σ W → Prop) : Program (Recorded σ W) ε α → Prop
  | .done _ => True
  | stmt x next => ∀ s, (∀ entry ∈ (x s).log,
      entry ∈ s.log ∨ due entry (x s) ∨ (next s).Next (due entry)) ∧ (next s).Delivers due

variable {due : W → Recorded σ W → Prop}

lemma Next.bind {done : σ → Prop} {p : Program σ ε α} {k : α → Program σ ε β} (h : p.Next done) :
    (p >>= k).Next done := by
  cases p with
  | done r => exact h.elim
  | stmt x next => exact h

lemma Next.exists {done : σ → Prop} {p : Program σ ε α} (h : p.Next done) (s : σ) :
    ∃ s', done s' := by
  cases p with
  | done r => exact h.elim
  | stmt x next => exact ⟨x s, h s⟩

lemma delivers_done (r : Except (Raised ε) α) :
    (done r : Program (Recorded σ W) ε α).Delivers due := trivial

lemma delivers_require (c : Bool) (e : ε) :
    (require c e : Program (Recorded σ W) ε Unit).Delivers due := by
  cases c with
  | true => trivial
  | false => trivial

lemma delivers_silently (p : Program σ ε α) :
    (p.silently : Program (Recorded σ W) ε α).Delivers due := by
  induction p with
  | done r => trivial
  | stmt x next ih => exact fun s => ⟨fun entry h => Or.inl h, ih s.store⟩

lemma Delivers.bind {p : Program (Recorded σ W) ε α} {k : α → Program (Recorded σ W) ε β}
    (hp : p.Delivers due) (hk : ∀ a, (k a).Delivers due) : (p >>= k).Delivers due := by
  induction p with
  | done r =>
      cases r with
      | ok a => exact hk a
      | error e => trivial
  | stmt x next ih =>
      refine fun s => ⟨fun entry hentry => ?_, ih s (hp s).2⟩
      obtain hold | hdone | hnext := (hp s).1 entry hentry
      · exact Or.inl hold
      · exact Or.inr (Or.inl hdone)
      · exact Or.inr (Or.inr hnext.bind)

/-- What the entries make due, the rest of the program begins with. -/
lemma delivers_recording_bind {x : Tx σ ε α} {entries : α → σ → List W}
    {k : α → Program (Recorded σ W) ε β}
    (h : ∀ a s, ∀ entry ∈ entries a s, (∀ s', due entry s') ∨ (k a).Next (due entry))
    (hk : ∀ a, (k a).Delivers due) : (recording x entries >>= k).Delivers due := by
  intro s
  change (∀ entry ∈ ((x.recording entries).exec s).2.log, entry ∈ s.log ∨
      due entry ((x.recording entries).exec s).2 ∨
      (done ((x.recording entries).exec s).1 >>= k : Program (Recorded σ W) ε β).Next (due entry)) ∧
    (done ((x.recording entries).exec s).1 >>= k : Program (Recorded σ W) ε β).Delivers due
  cases hx : (x.recording entries).run s with
  | error e =>
      rw [Tx.exec_error hx]
      exact ⟨fun entry hentry => Or.inl hentry, trivial⟩
  | ok r =>
      rw [Tx.exec_ok hx]
      obtain ⟨-, hlog⟩ := Tx.recording_ok hx
      refine ⟨fun entry hentry => ?_, hk r.1⟩
      rw [hlog, List.mem_append] at hentry
      obtain hnew | hold := hentry
      · obtain hdue | hnext := h r.1 s.store entry hnew
        · exact Or.inr (Or.inl (hdue _))
        · exact Or.inr (Or.inr hnext)
      · exact Or.inl hold

lemma Delivers.step {p p' : Program (Recorded σ W) ε α} {s s' : Recorded σ W}
    (hp : p.Delivers due) (h : p.step s = some (p', s')) :
    (∀ entry ∈ s'.log, entry ∈ s.log ∨ due entry s' ∨ p'.Next (due entry)) ∧
      p'.Delivers due ∧ ∀ done, p.Next done → done s' := by
  cases p with
  | done r => cases h
  | stmt x next =>
      cases h
      exact ⟨(hp s).1, (hp s).2, fun _ hnext => hnext s⟩

/-- Entries that make nothing due. -/
lemma delivers_recording {x : Tx σ ε α} {entries : α → σ → List W}
    (h : ∀ a s, ∀ entry ∈ entries a s, ∀ s', due entry s') :
    (recording x entries).Delivers due := by
  intro s
  change (∀ entry ∈ ((x.recording entries).exec s).2.log, entry ∈ s.log ∨
      due entry ((x.recording entries).exec s).2 ∨ _) ∧ True
  cases hx : (x.recording entries).run s with
  | error e =>
      rw [Tx.exec_error hx]
      exact ⟨fun entry hentry => Or.inl hentry, trivial⟩
  | ok r =>
      rw [Tx.exec_ok hx]
      obtain ⟨-, hlog⟩ := Tx.recording_ok hx
      refine ⟨fun entry hentry => ?_, trivial⟩
      rw [hlog, List.mem_append] at hentry
      obtain hnew | hold := hentry
      · exact Or.inr (Or.inl (h r.1 s.store entry hnew _))
      · exact Or.inl hold

end Program

/-! ## Pools of programs -/

/-- Programs that execute one statement at a time. -/
def programSystem (env : σ → σ → Prop) : System (Program σ ε α) σ where
  next p s := p.step s
  env := env

/-- What happens to the store from outside writes no entry. -/
def recordedEnv (env : σ → σ → Prop) (s s' : Recorded σ W) : Prop :=
  env s.store s'.store ∧ s'.log = s.log

section Pools

variable {ι : Type} [DecidableEq ι] {env : σ → σ → Prop}

/-- Every interleaving of programs is one of their recordings. -/
theorem exists_recorded_run {P₀ P : Pool ι (Program σ ε α) σ}
    {Q₀ : Pool ι (Program (Recorded σ W) ε α) (Recorded σ W)} (hstore : Q₀.store.store = P₀.store)
    (hpc : ∀ i, (Q₀.pc i).Records (P₀.pc i))
    (h : (programSystem env).Run (fun _ _ => True) P₀ P) :
    ∃ Q, (programSystem (recordedEnv env)).Run (fun _ _ => True) Q₀ Q ∧
      Q.store.store = P.store ∧ ∀ i, (Q.pc i).Records (P.pc i) := by
  induction h with
  | refl => exact ⟨Q₀, .refl, hstore, hpc⟩
  | @call P i p s hrun _ hnext ih =>
      obtain ⟨Q, hrun', hstore', hpc'⟩ := ih
      have hnext' : (P.pc i).step Q.store.store = some (p, s) := by
        rw [hstore']
        exact hnext
      obtain ⟨p', s', hstep, hs', hrecords⟩ := (hpc' i).step hnext'
      refine ⟨Q.advance i p' s', hrun'.call trivial hstep, hs', fun j => ?_⟩
      obtain ⟨rfl, hpcQ⟩ | ⟨hne, hpcQ⟩ := Q.pc_advance_cases i j p' s'
      · rw [hpcQ, P.pc_advance_self]
        exact hrecords
      · rw [hpcQ, Pool.pc_advance_of_ne hne]
        exact hpc' j
  | @env P s hrun henv ih =>
      obtain ⟨Q, hrun', hstore', hpc'⟩ := ih
      refine ⟨{ Q with store := { Q.store with store := s } }, hrun'.env ⟨?_, rfl⟩, rfl, hpc'⟩
      rw [hstore']
      exact henv

variable {R M : σ → σ → Prop}

/-- Programs that rely on what they all guarantee. -/
lemma programs_relyGuarantee [Std.Refl R] [IsTrans σ R] (hM : ∀ s s', M s s' → R s s')
    (henv : ∀ s s', env s s' → R s s') :
    (programSystem env : System (Program σ ε α) σ).RelyGuarantee R
      fun s p => p.Relies R M (fun _ _ => True) s where
  stable hp h := hp.mono h
  guarantee hp hnext := by
    obtain ⟨hmove, hp'⟩ := hp.step hnext
    exact ⟨hM _ _ hmove, hp'⟩
  rely h := henv _ _ h

/-- What every guaranteed move and the surroundings keep holds in every store of a run. -/
theorem System.Run.holds_of_relies [Std.Refl R] [IsTrans σ R]
    {ok : Pool ι (Program σ ε α) σ → ι → Prop} {P₀ P : Pool ι (Program σ ε α) σ} {I : σ → Prop}
    (hM : ∀ s s', M s s' → R s s') (henv : ∀ s s', env s s' → R s s')
    (hpc : ∀ i, (P₀.pc i).Relies R M (fun _ _ => True) P₀.store) (hstart : I P₀.store)
    (hmove : ∀ s s', I s → M s s' → I s') (hsame : ∀ s s', I s → env s s' → I s')
    (h : (programSystem env).Run ok P₀ P) : I P.store := by
  have hrg := programs_relyGuarantee (ε := ε) (α := α) hM henv
  induction h with
  | refl => exact hstart
  | call hrun _ hnext ih => exact hmove _ _ ih ((hrg.knows hpc hrun _).step hnext).1
  | env _ hs ih => exact hsame _ _ ih hs

/-- In every store of a run, what an entry of the log makes due is delivered, or the next statement
of one of the programs delivers it. -/
theorem System.Run.delivers_of_relies {R M : Recorded σ W → Recorded σ W → Prop} [Std.Refl R]
    [IsTrans (Recorded σ W) R] {due : W → Recorded σ W → Prop}
    {env : Recorded σ W → Recorded σ W → Prop}
    {ok : Pool ι (Program (Recorded σ W) ε α) (Recorded σ W) → ι → Prop}
    {P₀ P : Pool ι (Program (Recorded σ W) ε α) (Recorded σ W)} (hM : ∀ s s', M s s' → R s s')
    (henv : ∀ s s', env s s' → R s s')
    (hpc : ∀ i, (P₀.pc i).Relies R M (fun _ _ => True) P₀.store)
    (hdelivers : ∀ i, (P₀.pc i).Delivers due) (hstart : P₀.store.log = [])
    (hkeep : ∀ s s', M s s' → ∀ entry, due entry s → due entry s')
    (hquiet : ∀ s s', env s s' → s'.log = s.log ∧ ∀ entry, due entry s → due entry s')
    (h : (programSystem env).Run ok P₀ P) :
    (∀ i, (P.pc i).Delivers due) ∧ ∀ entry ∈ P.store.log,
      due entry P.store ∨ ∃ i, (P.pc i).Next (due entry) := by
  have hrg := programs_relyGuarantee (ε := ε) (α := α) hM henv
  induction h with
  | refl =>
      refine ⟨hdelivers, fun entry hentry => ?_⟩
      rw [hstart] at hentry
      cases hentry
  | @call P i p s hrun hok hnext ih =>
      obtain ⟨hpcs, hdue⟩ := ih
      have hmove : M P.store s := ((hrg.knows hpc hrun i).step hnext).1
      obtain ⟨hnew, hrest, hnexts⟩ := (hpcs i).step hnext
      refine ⟨fun j => ?_, fun entry hentry => ?_⟩
      · obtain ⟨rfl, hpcj⟩ | ⟨-, hpcj⟩ := P.pc_advance_cases i j p s
        · rw [hpcj]
          exact hrest
        · rw [hpcj]
          exact hpcs j
      · obtain hold | hdone | hnext' := hnew entry hentry
        · obtain hdone | ⟨j, hj⟩ := hdue entry hold
          · exact Or.inl (hkeep _ _ hmove entry hdone)
          · obtain ⟨rfl, -⟩ | ⟨-, hpcj⟩ := P.pc_advance_cases i j p s
            · exact Or.inl (hnexts _ hj)
            · refine Or.inr ⟨j, ?_⟩
              rw [hpcj]
              exact hj
        · exact Or.inl hdone
        · refine Or.inr ⟨i, ?_⟩
          rw [P.pc_advance_self]
          exact hnext'
  | @env P s hrun hs ih =>
      obtain ⟨hlog, hsame⟩ := hquiet _ _ hs
      refine ⟨ih.1, fun entry hentry => ?_⟩
      dsimp only at hentry
      rw [hlog] at hentry
      exact (ih.2 entry hentry).imp_left (hsame entry)

end Pools

/-! ## Justified logs -/

/-- Every entry is justified by the older ones. -/
def Justified (because : W → List W → Prop) : List W → Prop
  | [] => True
  | entry :: older => because entry older ∧ Justified because older

section Justified

variable {because : W → List W → Prop} {newer older : List W} {entry : W}

lemma Justified.of_append (h : Justified because (newer ++ older)) : Justified because older := by
  induction newer with
  | nil => exact h
  | cons _ _ ih => exact ih h.2

lemma Justified.because_of_append (h : Justified because (newer ++ entry :: older)) :
    because entry older := h.of_append.1

end Justified

/-! ## Replaying a log -/

/-- The row that the entries of a log make of a row, oldest first. -/
def replay {Row : Type} (apply : W → Row → Row) (log : List W) (r : Row) : Row :=
  log.foldr apply r

lemma replay_append {Row : Type} (apply : W → Row → Row) (newer older : List W) (r : Row) :
    replay apply (newer ++ older) r = replay apply newer (replay apply older r) :=
  List.foldr_append

/-- The rows of the later store are those of the earlier one, as the entries in between make
them. -/
def Replays {Row : Type} (rows : σ → List Row) (apply : W → Row → Row) (s s' : Recorded σ W) :
    Prop :=
  ∃ newer, s'.log = newer ++ s.log ∧ ∀ r ∈ rows s.store, replay apply newer r ∈ rows s'.store

instance {Row : Type} (rows : σ → List Row) (apply : W → Row → Row) :
    Std.Refl (Replays rows apply) := ⟨fun _ => ⟨[], rfl, fun _ h => h⟩⟩

instance {Row : Type} (rows : σ → List Row) (apply : W → Row → Row) :
    IsTrans (Recorded σ W) (Replays rows apply) where
  trans := by
    rintro a b c ⟨newer, hlog, hrows⟩ ⟨newer', hlog', hrows'⟩
    refine ⟨newer' ++ newer, ?_, fun r hr => ?_⟩
    · rw [hlog', hlog, List.append_assoc]
    · rw [replay_append]
      exact hrows' _ (hrows r hr)

end BePyEco.Library
