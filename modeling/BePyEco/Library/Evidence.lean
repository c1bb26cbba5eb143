import BePyEco.Library.Recording
import Mathlib.Data.Set.Insert

/-!
# Programs that act on what they have found

A program reads the store before it writes, and what it reads is its reason to write.  What it has
written it has seen as well.  `Program.Earns Ok post p found` says so: every statement of `p` moves
the store as some of the stores permit that its statements have found so far (those of `found`, and
the one at hand), and what the program returns satisfies `post` together with the stores found.

`System.Visits` is a run with the stores that it visits.  `System.Visits.earned` is about a pool of
such programs: between any two points of a run, the store moves as the stores visited so far permit.
-/

namespace BePyEco.Library

namespace Program

variable {σ ε α β : Type} {Ok : Set σ → σ → σ → Prop} {post : α → Set σ → Prop} {found : Set σ}

/-- The stores found, with those before and after a statement. -/
def learn (s s' : σ) (found : Set σ) : Set σ := insert s (insert s' found)

lemma before_mem_learn {s s' : σ} : s ∈ learn s s' found := Set.mem_insert s _

lemma after_mem_learn {s s' : σ} : s' ∈ learn s s' found :=
  Set.mem_insert_of_mem s (Set.mem_insert s' found)

lemma subset_learn {s s' : σ} : found ⊆ learn s s' found :=
  (Set.subset_insert s' found).trans (Set.subset_insert s _)

/-- Every statement moves the store as some of the stores found so far permit. -/
def Earns (Ok : Set σ → σ → σ → Prop) (post : α → Set σ → Prop) : Program σ ε α → Set σ → Prop
  | done (.ok a), found => post a found
  | done (.error _), _ => True
  | stmt x next, found => ∀ s, (∃ evidence ⊆ insert s found, Ok evidence s (x s)) ∧
      (next s).Earns Ok post (learn s (x s) found)

lemma earns_pure {a : α} (h : post a found) : (pure a : Program σ ε α).Earns Ok post found := h

lemma earns_raise (error : ε) : (raise error : Program σ ε α).Earns Ok post found := trivial

lemma earns_require {c : Bool} {error : ε} {post : Unit → Set σ → Prop}
    (h : c = true → post () found) : (require c error : Program σ ε Unit).Earns Ok post found := by
  by_cases hc : c = true
  · rw [hc]
    exact h hc
  · rw [Bool.not_eq_true] at hc
    rw [hc]
    trivial

/-- A statement that returns may use the store that it finds. -/
lemma earns_exec [∀ found, Std.Refl (Ok found)] {x : Tx σ ε α}
    (h : ∀ s a s', x.run s = .ok (a, s') →
      Ok (insert s found) s s' ∧ post a (learn s s' found)) :
    (exec x).Earns Ok post found := by
  intro s
  change (∃ evidence ⊆ insert s found, Ok evidence s (x.exec s).2) ∧
    (done (x.exec s).1 : Program σ ε α).Earns Ok post (learn s (x.exec s).2 found)
  cases hx : x.run s with
  | ok r =>
      rw [Tx.exec_ok hx]
      obtain ⟨hok, hpost⟩ := h s r.1 r.2 hx
      exact ⟨⟨_, subset_rfl, hok⟩, hpost⟩
  | error raised =>
      rw [Tx.exec_error hx]
      exact ⟨⟨_, subset_rfl, refl_of _ s⟩, trivial⟩

/-- A statement that needs no more reasons than are found. -/
lemma earns_exec_of_guarantees [∀ found, Std.Refl (Ok found)] {x : Tx σ ε α}
    (hx : x.Guarantees (Ok found))
    (h : ∀ s a s', x.run s = .ok (a, s') → post a (learn s s' found)) :
    (exec x).Earns Ok post found := by
  intro s
  change (∃ evidence ⊆ insert s found, Ok evidence s (x.exec s).2) ∧
    (done (x.exec s).1 : Program σ ε α).Earns Ok post (learn s (x.exec s).2 found)
  cases hrun : x.run s with
  | ok r =>
      rw [Tx.exec_ok hrun]
      exact ⟨⟨found, Set.subset_insert s found, hx s r.1 r.2 hrun⟩, h s r.1 r.2 hrun⟩
  | error raised =>
      rw [Tx.exec_error hrun]
      exact ⟨⟨found, Set.subset_insert s found, refl_of _ s⟩, trivial⟩

lemma Earns.bind {p : Program σ ε α} {k : α → Program σ ε β} {post' : β → Set σ → Prop}
    (hp : p.Earns Ok post found)
    (hk : ∀ a found', found ⊆ found' → post a found' → (k a).Earns Ok post' found') :
    (p >>= k).Earns Ok post' found := by
  induction p generalizing found with
  | done r =>
      cases r with
      | ok a => exact hk a found subset_rfl hp
      | error raised => trivial
  | stmt x next ih =>
      intro s
      refine ⟨(hp s).1, ih s (hp s).2 fun a found' hsub => ?_⟩
      exact hk a found' (subset_learn.trans hsub)

lemma Earns.imp {p : Program σ ε α} {post' : α → Set σ → Prop} (hp : p.Earns Ok post found)
    (h : ∀ a found', found ⊆ found' → post a found' → post' a found') :
    p.Earns Ok post' found := by
  induction p generalizing found with
  | done r =>
      cases r with
      | ok a => exact h a found subset_rfl hp
      | error raised => trivial
  | stmt x next ih =>
      intro s
      refine ⟨(hp s).1, ih s (hp s).2 fun a found' hsub => ?_⟩
      exact h a found' (subset_learn.trans hsub)

/-- Nothing is asked of the statements. -/
def anyMove : Set σ → σ → σ → Prop := fun _ _ _ => True

instance (found : Set σ) : Std.Refl (anyMove found) := ⟨fun _ => trivial⟩

lemma earns_anyMove (p : Program σ ε α) (found : Set σ) :
    p.Earns anyMove (fun _ _ => True) found := by
  induction p generalizing found with
  | done r =>
      cases r with
      | ok a => trivial
      | error raised => trivial
  | stmt x next ih => exact fun s => ⟨⟨∅, Set.empty_subset _, trivial⟩, ih s _⟩

/-- What is returned does not depend on what the statements may do. -/
lemma Earns.anyMove {p : Program σ ε α} (hp : p.Earns Ok post found) :
    p.Earns Program.anyMove post found := by
  induction p generalizing found with
  | done r =>
      cases r with
      | ok a => exact hp
      | error raised => trivial
  | stmt x next ih => exact fun s => ⟨⟨∅, Set.empty_subset _, trivial⟩, ih s (hp s).2⟩

/-- A program that needs no more reasons than are found keeps to them. -/
lemma Guarantees.earns {p : Program σ ε α} (hp : p.Guarantees (Ok found)) :
    p.Earns Ok (fun _ _ => True) found := by
  have hmore : ∀ found', found ⊆ found' → p.Earns Ok (fun _ _ => True) found' := by
    induction p with
    | done r =>
        intro found' _
        cases r with
        | ok a => trivial
        | error raised => trivial
    | stmt x next ih =>
        intro found' hsub s
        have hinsert : found ⊆ insert s found' := hsub.trans (Set.subset_insert s found')
        exact ⟨⟨found, hinsert, (hp s).1⟩, ih s (hp s).2 _ (hsub.trans subset_learn)⟩
  exact hmore found subset_rfl

lemma Earns.bind_return {p : Program σ ε α} {f : α → β} {post : β → Set σ → Prop}
    (hp : p.Earns Ok (fun a found' => post (f a) found') found) :
    (p >>= fun a => done (.ok (f a)) : Program σ ε β).Earns Ok post found :=
  hp.bind fun _ _ _ h => h

/-- A program that goes on with a result at hand. -/
lemma earns_ofExcept_bind {r : Except ε α} {k : α → Program σ ε β} {post : β → Set σ → Prop}
    (hk : ∀ a, r = .ok a → (k a).Earns Ok post found) :
    (ofExcept r >>= k).Earns Ok post found := by
  cases r with
  | ok a => exact hk a rfl
  | error _ => trivial

/-- A program that goes on behind a check on values at hand. -/
lemma earns_require_bind {c : Bool} {error : ε} {k : Unit → Program σ ε β}
    {post : β → Set σ → Prop} (hk : c = true → (k ()).Earns Ok post found) :
    (require c error >>= k).Earns Ok post found :=
  have hchecked : (require c error : Program σ ε Unit).Earns Ok
      (fun _ found' => found' = found ∧ c = true) found := earns_require fun hc => ⟨rfl, hc⟩
  hchecked.bind fun _ _ _ h => by
    rw [h.1]
    exact hk h.2

/-- A program that goes on with what a statement returned. -/
lemma guarantees_exec_bind {R : σ → σ → Prop} [Std.Refl R] {x : Tx σ ε α}
    {k : α → Program σ ε β} (hx : x.Guarantees R)
    (hk : ∀ s a s', x.run s = .ok (a, s') → (k a).Guarantees R) :
    (exec x >>= k).Guarantees R := by
  intro s
  change R s (x.exec s).2 ∧ (done (x.exec s).1 >>= k : Program σ ε β).Guarantees R
  cases h : x.run s with
  | ok r =>
      rw [Tx.exec_ok h]
      exact ⟨hx s r.1 r.2 h, hk s r.1 r.2 h⟩
  | error raised =>
      rw [Tx.exec_error h]
      exact ⟨refl_of R s, trivial⟩

lemma guarantees_ofExcept_bind {R : σ → σ → Prop} {r : Except ε α} {k : α → Program σ ε β}
    (hk : ∀ a, r = .ok a → (k a).Guarantees R) : (ofExcept r >>= k).Guarantees R := by
  cases r with
  | ok a => exact hk a rfl
  | error _ => trivial

end Program

/-! ## Runs -/

section Runs

variable {ι σ ε α : Type} [DecidableEq ι]

/-- A run from one pool to another, with the stores that it visits. -/
inductive System.Visits {Pc : Type} (S : System Pc σ) (P₀ : Pool ι Pc σ) :
    Set σ → Pool ι Pc σ → Prop
  | start : S.Visits P₀ {P₀.store} P₀
  | call {visited : Set σ} {P : Pool ι Pc σ} {i : ι} {c : Pc} {s : σ}
      (hvisits : S.Visits P₀ visited P) (hnext : S.next (P.pc i) P.store = some (c, s)) :
      S.Visits P₀ (insert s visited) (P.advance i c s)
  | env {visited : Set σ} {P : Pool ι Pc σ} {s : σ} (hvisits : S.Visits P₀ visited P)
      (henv : S.env P.store s) : S.Visits P₀ (insert s visited) { P with store := s }

namespace System.Visits

variable {Pc : Type} {S : System Pc σ} {P₀ P₁ P : Pool ι Pc σ} {visited visited' : Set σ} {s : σ}

lemma run (h : S.Visits P₀ visited P) : S.Run (fun _ _ => True) P₀ P := by
  induction h with
  | start => exact .refl
  | call _ hnext ih => exact ih.call trivial hnext
  | env _ henv ih => exact ih.env henv

/-- The store of the last pool is the newest one. -/
lemma store_mem (h : S.Visits P₀ visited P) : P.store ∈ visited := by
  cases h with
  | start => exact Set.mem_singleton _
  | call _ _ => exact Set.mem_insert _ _
  | env _ _ => exact Set.mem_insert _ _

lemma start_mem (h : S.Visits P₀ visited P) : P₀.store ∈ visited := by
  induction h with
  | start => exact Set.mem_singleton _
  | call _ _ ih => exact Set.mem_insert_of_mem _ ih
  | env _ _ ih => exact Set.mem_insert_of_mem _ ih

/-- What is visited lies on the way. -/
lemma exists_run (h : S.Visits P₀ visited P) (hs : s ∈ visited) :
    ∃ P', S.Run (fun _ _ => True) P₀ P' ∧ S.Run (fun _ _ => True) P' P ∧ P'.store = s := by
  induction h with
  | start => exact ⟨P₀, .refl, .refl, (Set.mem_singleton_iff.1 hs).symm⟩
  | call hvisits hnext ih =>
      obtain rfl | hearlier := Set.mem_insert_iff.1 hs
      · exact ⟨_, (hvisits.call hnext).run, .refl, rfl⟩
      · obtain ⟨P', hrun, hrest, hstore⟩ := ih hearlier
        exact ⟨P', hrun, hrest.call trivial hnext, hstore⟩
  | env hvisits henv ih =>
      obtain rfl | hearlier := Set.mem_insert_iff.1 hs
      · exact ⟨_, (hvisits.env henv).run, .refl, rfl⟩
      · obtain ⟨P', hrun, hrest, hstore⟩ := ih hearlier
        exact ⟨P', hrun, hrest.env henv, hstore⟩

lemma trans (h : S.Visits P₀ visited P₁) (h' : S.Visits P₁ visited' P) :
    S.Visits P₀ (visited ∪ visited') P := by
  induction h' with
  | start =>
      rw [Set.union_eq_left.2 (Set.singleton_subset_iff.2 h.store_mem)]
      exact h
  | call _ hnext ih =>
      rw [Set.union_insert]
      exact ih.call hnext
  | env _ henv ih =>
      rw [Set.union_insert]
      exact ih.env henv

end System.Visits

/-- Every run visits its stores. -/
lemma System.Run.visits {Pc : Type} {S : System Pc σ} {ok : Pool ι Pc σ → ι → Prop}
    {P₀ P : Pool ι Pc σ} (h : S.Run ok P₀ P) : ∃ visited, S.Visits P₀ visited P := by
  induction h with
  | refl => exact ⟨_, .start⟩
  | call _ _ hnext ih =>
      obtain ⟨visited, hvisits⟩ := ih
      exact ⟨_, hvisits.call hnext⟩
  | env _ henv ih =>
      obtain ⟨visited, hvisits⟩ := ih
      exact ⟨_, hvisits.env henv⟩

variable {env : σ → σ → Prop} {P₀ P P' : Pool ι (Program σ ε α) σ} {visited visited' : Set σ}
  {Ok : ι → Set σ → σ → σ → Prop} {post : ι → α → Set σ → Prop}

/-- What is left of a program goes on from stores that the run has visited. -/
lemma System.Visits.earns (hstart : ∀ i, (P₀.pc i).Earns (Ok i) (post i) ∅)
    (h : (programSystem env).Visits P₀ visited P) (i : ι) :
    ∃ found ⊆ visited, (P.pc i).Earns (Ok i) (post i) found := by
  induction h with
  | start => exact ⟨∅, Set.empty_subset _, hstart i⟩
  | @call visited P j p s hvisits hnext ih =>
      obtain ⟨found, hfound, hearns⟩ := ih
      have hlater : found ⊆ insert s visited := hfound.trans (Set.subset_insert s visited)
      obtain ⟨rfl, hpc⟩ | ⟨-, hpc⟩ := P.pc_advance_cases j i p s
      · rw [hpc]
        change (P.pc i).step P.store = some (p, s) at hnext
        cases hcall : P.pc i with
        | done r =>
            rw [hcall] at hnext
            cases hnext
        | stmt x next =>
            rw [hcall] at hnext hearns
            cases hnext
            refine ⟨_, ?_, (hearns P.store).2⟩
            refine Set.insert_subset (Set.mem_insert_of_mem _ hvisits.store_mem) ?_
            exact Set.insert_subset (Set.mem_insert _ _) hlater
      · rw [hpc]
        exact ⟨found, hlater, hearns⟩
  | env hvisits henv ih =>
      obtain ⟨found, hfound, hearns⟩ := ih
      exact ⟨found, hfound.trans (Set.subset_insert _ _), hearns⟩

/-- What a program of a run has returned is as promised, by stores that the run has visited. -/
theorem System.Visits.earned_result (hstart : ∀ i, (P₀.pc i).Earns (Ok i) (post i) ∅)
    (h : (programSystem env).Visits P₀ visited P) {i : ι} {a : α}
    (hdone : P.pc i = .done (.ok a)) : ∃ found ⊆ visited, post i a found := by
  obtain ⟨found, hfound, hearns⟩ := h.earns hstart i
  rw [hdone] at hearns
  exact ⟨found, hfound, hearns⟩

/-- A step of a run is permitted by stores that the run has visited before it. -/
lemma System.Visits.earned_step (hstart : ∀ i, (P₀.pc i).Earns (Ok i) (post i) ∅)
    (h : (programSystem env).Visits P₀ visited P) {i : ι} {p : Program σ ε α} {s : σ}
    (hnext : (programSystem env).next (P.pc i) P.store = some (p, s)) :
    ∃ evidence ⊆ visited, Ok i evidence P.store s := by
  obtain ⟨found, hfound, hearns⟩ := h.earns hstart i
  change (P.pc i).step P.store = some (p, s) at hnext
  cases hcall : P.pc i with
  | done r =>
      rw [hcall] at hnext
      cases hnext
  | stmt x next =>
      rw [hcall] at hnext hearns
      cases hnext
      obtain ⟨evidence, hsub, hok⟩ := (hearns P.store).1
      exact ⟨evidence, hsub.trans (Set.insert_subset h.store_mem hfound), hok⟩

/-- What the permitted steps keep, given the stores visited before them, holds along a run. -/
theorem System.Visits.earned_invariant (hstart : ∀ i, (P₀.pc i).Earns (Ok i) (post i) ∅)
    {motive : Set σ → Pool ι (Program σ ε α) σ → Prop} (hinit : motive {P₀.store} P₀)
    (hcall : ∀ visited P P' i evidence, (programSystem env).Visits P₀ visited P →
      motive visited P → evidence ⊆ visited → Ok i evidence P.store P'.store →
      motive (insert P'.store visited) P')
    (henv : ∀ visited P P', (programSystem env).Visits P₀ visited P → motive visited P →
      env P.store P'.store → motive (insert P'.store visited) P')
    (h : (programSystem env).Visits P₀ visited P) : motive visited P := by
  induction h with
  | start => exact hinit
  | @call visited P i p s hvisits hnext ih =>
      obtain ⟨evidence, hsub, hok⟩ := hvisits.earned_step hstart hnext
      exact hcall visited P (P.advance i p s) i evidence hvisits ih hsub hok
  | @env visited P s hvisits hs ih => exact henv visited P { P with store := s } hvisits ih hs

/-- Between any two points of a run, the store moves as the stores visited so far permit. -/
theorem System.Visits.earned {R : Set σ → σ → σ → Prop} [∀ visited, Std.Refl (R visited)]
    [∀ visited, IsTrans σ (R visited)]
    (hstart : ∀ i, (P₀.pc i).Earns (Ok i) (post i) ∅)
    (hmono : ∀ visited visited' s s', visited ⊆ visited' → R visited s s' → R visited' s s')
    (hok : ∀ i evidence s s', Ok i evidence s s' → R evidence s s')
    (henv : ∀ s s', env s s' → R ∅ s s')
    (h : (programSystem env).Visits P₀ visited P)
    (h' : (programSystem env).Visits P visited' P') :
    R (visited ∪ visited') P.store P'.store := by
  induction h' with
  | start => exact refl_of _ P.store
  | @call visited' Q i p s hvisits hnext ih =>
      have hlater : visited ∪ visited' ⊆ visited ∪ insert s visited' :=
        Set.union_subset_union_right _ (Set.subset_insert _ _)
      obtain ⟨evidence, hsub, hstep⟩ := (h.trans hvisits).earned_step hstart hnext
      refine trans_of _ (hmono _ _ _ _ hlater ih) ?_
      exact hmono _ _ _ _ (hsub.trans hlater) (hok i evidence _ _ hstep)
  | @env visited' Q s hvisits hs ih =>
      have hlater : visited ∪ visited' ⊆ visited ∪ insert s visited' :=
        Set.union_subset_union_right _ (Set.subset_insert _ _)
      refine trans_of _ (hmono _ _ _ _ hlater ih) ?_
      exact hmono _ _ _ _ (Set.empty_subset _) (henv _ _ hs)

end Runs

end BePyEco.Library
