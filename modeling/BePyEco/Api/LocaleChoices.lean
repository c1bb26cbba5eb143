import BePyEco.Api.Ownership

/-!
# Locales that customers choose and are offered

Countries are seeded and never changed, so what an active country offers it offers for good.  Hence
the preferences that customers have stored stay within what is offered (`preferences_offered`), and
a suggestion is accepted by any later validation, unless Vietnam has been seeded in between with a
primary key that comes before all that there were (`suggestion_accepted`).
-/

namespace BePyEco

open Library

/-! ## Stored preferences -/

/-- A country of the database offers the locale and the currency. -/
def OfferedBy (db : Database) (locale currency : String) : Prop :=
  ∃ country ∈ db.supportedCountries.rows, country.isActive = true ∧
    locale ∈ country.allowedLocales ∧ currency ∈ country.allowedCurrencies

/-- The preference of a customer is blank, or one that is offered. -/
def Preferable (offered : String → String → Prop) (c : Customer) : Prop :=
  (c.preferredLocale = "" ∧ c.preferredCurrency = "") ∨
    offered c.preferredLocale c.preferredCurrency

/-- The preference stays the same, or becomes one that is offered. -/
structure PreferenceMoves (offered : String → String → Prop) (c c' : Customer) : Prop where
  move : (c'.preferredLocale = c.preferredLocale ∧ c'.preferredCurrency = c.preferredCurrency) ∨
    offered c'.preferredLocale c'.preferredCurrency

section Moves

variable {offered offered' : String → String → Prop} {c c' : Customer}

instance : Std.Refl (PreferenceMoves offered) := ⟨fun _ => ⟨Or.inl ⟨rfl, rfl⟩⟩⟩

instance : IsTrans Customer (PreferenceMoves offered) where
  trans c c' c'' h h' := by
    constructor
    obtain ⟨hlocale, hcurrency⟩ | hoffered := h'.move
    · rw [hlocale, hcurrency]
      exact h.move
    · exact Or.inr hoffered

lemma Preferable.moves (h : Preferable offered c) (hmove : PreferenceMoves offered c c') :
    Preferable offered c' := by
  obtain ⟨hlocale, hcurrency⟩ | hoffered := hmove.move
  · rw [Preferable, hlocale, hcurrency]
    exact h
  · exact Or.inr hoffered

lemma Preferable.imp (h : Preferable offered c)
    (hsub : ∀ locale currency, offered locale currency → offered' locale currency) :
    Preferable offered' c := h.imp_right (hsub _ _)

end Moves

section Runs

variable [Libraries] {ι : Type} {w : World} {work : ι → Work}

/-- A piece of work leaves the preferences alone, or stores one that it found to be offered. -/
lemma preferenceMoves_of_change {work : Work} {found : Set World} {c c' : Customer}
    (h : (work.policy found .customers).change c c') : PreferenceMoves (Offered found) c c' := by
  have hsame : ∀ {c' : Customer}, c'.preferredLocale = c.preferredLocale →
      c'.preferredCurrency = c.preferredCurrency → PreferenceMoves (Offered found) c c' :=
    fun hlocale hcurrency => ⟨Or.inl ⟨hlocale, hcurrency⟩⟩
  cases work with
  | http endpoint request =>
      cases endpoint
      case verifyEmail =>
        obtain ⟨-, -, t, rfl⟩ := h
        exact hsame rfl rfl
      case googleLogin clientId tokeninfo =>
        obtain ⟨-, -, -, t, rfl⟩ := h
        exact hsame rfl rfl
      case updateLocalePreference =>
        obtain ⟨-, -, locale, currency, -, hoffered, rfl⟩ := h
        exact ⟨Or.inr hoffered⟩
      case confirmEmailChange =>
        obtain ⟨-, -, t, rfl⟩ := h
        exact hsame rfl rfl
      case disableCustomer customerId =>
        obtain ⟨-, -, rfl⟩ := h
        exact hsame rfl rfl
      all_goals first | exact h.elim | exact h.elim fun _ h => h.elim
  | internal call => cases call <;> exact h.elim
  | _ => exact h.elim

/-- A customer is created without a preference. -/
lemma preferable_of_add {work : Work} {found : Set World} {c : Customer}
    (h : (work.policy found .customers).add c) (offered : String → String → Prop) :
    Preferable offered c := by
  cases work with
  | http endpoint request =>
      cases endpoint
      case register => exact Or.inl h.1.2
      case googleLogin clientId tokeninfo =>
        obtain ⟨-, ⟨-, hblank⟩, -⟩ := h
        exact Or.inl hblank
      all_goals first | exact h.elim | exact h.elim fun _ h => h.elim
  | internal call => cases call <;> exact h.elim
  | _ => exact h.elim

/-- The only country that is added is Vietnam. -/
lemma country_of_add {work : Work} {found : Set World} {country : SupportedCountry}
    (h : (work.policy found .supportedCountries).add country) :
    ∃ uuid id, country = vietnam uuid id := by
  cases work with
  | http endpoint request =>
      cases endpoint <;> first | exact h.elim | exact h.elim fun _ h => h.elim
  | internal call => cases call <;> exact h.elim
  | createMasterAdmin email password => exact h.elim
  | seedSupportedCountries uuid => exact ⟨uuid, h⟩

variable [DecidableEq ι] {P : Pool ι (Service (Option Answer)) World}

/-- What was offered in a database of the run is offered still. -/
lemma offeredBy_of_visited {visited : Set World} (h : ApiVisits (apiPool w work) visited P)
    {locale currency : String} (hoffered : Offered visited locale currency) :
    OfferedBy P.store.db locale currency := by
  obtain ⟨w', hw', country, hcountry, hoffers⟩ := hoffered
  exact ⟨country, (permanent_of_visited .refl h hw').supportedCountries.subset hcountry, hoffers⟩

/-- In any interleaving of any work, the stored preferences stay within what is offered. -/
theorem preferences_offered (h : ApiRun (apiPool w work) P)
    (hstart : ∀ c ∈ w.db.customers.rows, Preferable (OfferedBy w.db) c) :
    ∀ c ∈ P.store.db.customers.rows, Preferable (OfferedBy P.store.db) c := by
  obtain ⟨visited, hvisits⟩ := h.visits
  let offered := Offered visited
  have hchange : ∀ r r', (earnedPolicy work visited .customers).change r r' →
      PreferenceMoves offered r r' := by
    intro r r' hchange
    obtain ⟨i, found, hsub, hchange⟩ := (earned_by_work (by decide)).2 hchange
    obtain hsame | ⟨w', hw', hoffers⟩ := (preferenceMoves_of_change hchange).move
    · exact ⟨Or.inl hsame⟩
    · exact ⟨Or.inr ⟨w', hsub hw', hoffers⟩⟩
  intro c hc
  suffices hvisited : Preferable offered c from hvisited.imp fun _ _ =>
    offeredBy_of_visited hvisits
  obtain ⟨r, hr, -, hmoves⟩ | ⟨r, hadd, -, hmoves⟩ :=
    TablePolicy.origin_of_allows hchange ((run_allows_start hvisits).tables .customers) hc
  · have hfirst : w ∈ visited := hvisits.start_mem
    have hinitial : Preferable offered r := (hstart r hr).imp fun _ _ hoffers =>
      ⟨w, hfirst, hoffers⟩
    exact hinitial.moves hmoves
  · obtain ⟨i, found, -, hadd⟩ := (earned_by_work (by decide)).1 hadd
    exact (preferable_of_add hadd offered).moves hmoves

/-! ## Suggestions -/

/-- Every country allows its default locale. -/
def DefaultsAllowed (db : Database) : Prop :=
  ∀ country ∈ db.supportedCountries.rows, country.defaultLocale ∈ country.allowedLocales

lemma defaultsAllowed_of_run (h : ApiRun (apiPool w work) P) (hstart : DefaultsAllowed w.db) :
    DefaultsAllowed P.store.db := by
  intro country hcountry
  obtain ⟨visited, hvisits⟩ := h.visits
  have hrow : country ∈ (TableName.supportedCountries.table P.store.db).rows := hcountry
  obtain hold | ⟨i, found, -, hadd⟩ := origin_of_row (by decide) (not_changed rfl) hvisits hrow
  · exact hstart country hold
  · obtain ⟨uuid, id, rfl⟩ := country_of_add hadd
    exact List.mem_cons_self

omit [DecidableEq ι] in
/-- A suggestion is made of what the first active country has. -/
lemma suggestLocale_ok {acceptLanguage : Option String} {suggestion : LocaleSuggestion}
    {w' : World} (h : (suggestLocale acceptLanguage).run w = (.ok suggestion, w')) :
    ∃ country, FirstActive w country ∧ suggestion.currency ∈ country.allowedCurrencies ∧
      (suggestion.locale ∈ country.allowedLocales ∨
        suggestion.locale = country.defaultLocale) := by
  obtain ⟨found, hquery⟩ : ∃ found, firstActiveCountry.run w = .ok (found, w) := ⟨_, rfl⟩
  rw [suggestLocale, Program.liftM_eq, Program.run_exec_bind_of_ok hquery] at h
  cases found with
  | none => cases h
  | some country =>
      dsimp only at h
      cases hcurrencies : country.allowedCurrencies with
      | nil =>
          rw [hcurrencies] at h
          cases h
      | cons currency rest =>
          rw [hcurrencies] at h
          cases h
          refine ⟨country, (firstActiveCountry_ok hquery).2, ?_,
            suggestedLocale_mem acceptLanguage country.allowedLocales _⟩
          rw [hcurrencies]
          exact List.mem_cons_self

/-- Vietnam is seeded between two databases, and comes before every active country of the first. -/
structure VietnamFirst (db db' : Database) : Prop where
  missing : ∀ country ∈ db.supportedCountries.rows, country.code ≠ "VN"
  seeded : ∃ uuid id, vietnam uuid id ∈ db'.supportedCountries.rows ∧
    ∀ country ∈ db.supportedCountries.rows, country.isActive = true → uuid < country.uuid

/-- A country that is first stays the first, unless Vietnam comes before it. -/
lemma firstActive_of_run {Q : Pool ι (Service (Option Answer)) World}
    (h : ApiRun (apiPool w work) P) (h' : ApiRun P Q) {country : SupportedCountry}
    (hfirst : FirstActive P.store country) :
    FirstActive Q.store country ∨ VietnamFirst P.store.db Q.store.db := by
  have hkept := (permanent_of_allows (app_policy h h')).supportedCountries
  by_cases hleast : ∀ c ∈ Q.store.db.supportedCountries.rows, c.isActive = true →
      country.uuid ≤ c.uuid
  · exact Or.inl ⟨hkept.subset hfirst.stored, hfirst.active, hleast⟩
  · push Not at hleast
    obtain ⟨c, hc, hactive, hbefore⟩ := hleast
    have hnew : c ∉ P.store.db.supportedCountries.rows := fun hold =>
      absurd (hfirst.least c hold hactive) (Nat.not_le.2 hbefore)
    have hrow : c ∈ (TableName.supportedCountries.table Q.store.db).rows := hc
    obtain ⟨visited, hvisits⟩ := (h.trans h').visits
    obtain hold | ⟨i, found, -, hadd⟩ := origin_of_row (by decide) (not_changed rfl) hvisits hrow
    · have hgrown := (permanent_of_allows (app_policy .refl h)).supportedCountries
      exact absurd (hgrown.subset hold) hnew
    · obtain ⟨uuid, id, rfl⟩ := country_of_add hadd
      refine Or.inr ⟨fun other hother hcode => hnew ?_, uuid, id, hc, fun other hother hactive =>
        ?_⟩
      · have hsame : other = vietnam uuid id := Q.store.db.supportedCountries.eq_of_conflicts
          (hkept.subset hother) hc (decide_eq_true (Or.inl hcode))
        exact hsame ▸ hother
      · exact lt_of_lt_of_le hbefore (hfirst.least other hother hactive)

/-- What is suggested at one point of a run is accepted at any later one, unless Vietnam has been
seeded in between and comes first. -/
theorem suggestion_accepted {Q : Pool ι (Service (Option Answer)) World}
    (h : ApiRun (apiPool w work) P) (h' : ApiRun P Q) (hstart : DefaultsAllowed w.db)
    {acceptLanguage : Option String} {suggestion : LocaleSuggestion} {w' : World}
    (hsuggests : (suggestLocale acceptLanguage).run P.store = (.ok suggestion, w')) :
    (∃ country, (validateLocaleAndCurrency suggestion.locale suggestion.currency).run Q.store =
      (.ok country, Q.store)) ∨ VietnamFirst P.store.db Q.store.db := by
  obtain ⟨country, hfirst, hcurrency, hlocale⟩ := suggestLocale_ok hsuggests
  have hallowed : suggestion.locale ∈ country.allowedLocales := by
    obtain hlocale | hdefault := hlocale
    · exact hlocale
    · rw [hdefault]
      exact defaultsAllowed_of_run h hstart country hfirst.stored
  refine (firstActive_of_run h h' hfirst).imp_left fun hlater => ⟨country, ?_⟩
  rw [validateLocaleAndCurrency, Program.liftM_eq, Program.run_exec_bind_of_ok hlater.run]
  dsimp only
  rw [decide_eq_true hallowed, decide_eq_true hcurrency]
  rfl

end Runs

section Example

attribute [local instance] plainLibraries

/-- The countries are seeded, and the first customer makes a choice. -/
def choosing : Bool → Work
  | false => .seedSupportedCountries 0
  | true => .http .updateLocalePreference {
      authorization := .signed { userId := 0, actorType := some .customer, exp := 900 }
      data := .obj [("locale", .str "vi"), ("currency", .str "USD")]
      context := { remoteAddr := none, id := 0 } }

def seeded : Pool Bool (Service (Option Answer)) World :=
  (programSystem Surroundings).replay (fun _ _ => true) (apiPool openingWorld choosing)
    [false, true, false, true] (by decide)

def chosen : Pool Bool (Service (Option Answer)) World :=
  (programSystem Surroundings).replay (fun _ _ => true) seeded [true, true] (by decide)

lemma seeded_run : ApiRun (apiPool openingWorld choosing) seeded :=
  System.run_replay (fun _ _ _ => trivial) _

lemma chosen_run : ApiRun seeded chosen := System.run_replay (fun _ _ _ => trivial) _

lemma preferences_offered_chosen :
    (∃ c ∈ chosen.store.db.customers.rows, c.preferredCurrency = "USD") ∧
      ∀ c ∈ chosen.store.db.customers.rows, Preferable (OfferedBy chosen.store.db) c := by
  have hblank : ∀ c ∈ openingWorld.db.customers.rows,
      c.preferredLocale = "" ∧ c.preferredCurrency = "" := by decide
  exact ⟨by decide, preferences_offered (seeded_run.trans chosen_run) fun c hc =>
    Or.inl (hblank c hc)⟩

/-- Once Vietnam is there, nothing comes before it. -/
lemma suggestion_accepted_seeded : ∃ country,
    (validateLocaleAndCurrency (suggestedLocale none ["vi", "en"] "vi") "VND").run chosen.store =
      (.ok country, chosen.store) := by
  have hnone : openingWorld.db.supportedCountries.rows = [] := by decide
  have hstart : DefaultsAllowed openingWorld.db := by
    rw [DefaultsAllowed, hnone]
    exact List.forall_mem_nil _
  have hsuggests : (suggestLocale none).run seeded.store =
      (.ok ⟨"VN", suggestedLocale none ["vi", "en"] "vi", "VND"⟩, seeded.store) := rfl
  have hvietnam : vietnam 0 0 ∈ seeded.store.db.supportedCountries.rows := by decide
  refine (suggestion_accepted seeded_run chosen_run hstart hsuggests).resolve_right ?_
  exact fun hfirst => hfirst.missing _ hvietnam rfl

end Example

end BePyEco
