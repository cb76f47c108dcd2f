import LiveMenu.Writes.FreeSlugs
import LiveMenu.Writes.RaceCode

/-!
# Races for emails, owners and slugs

The unique indexes refuse what another call has taken between a lookup and the commit that relies on
it, and nothing turns that error into an answer.
-/

namespace LiveMenu

/-! ### The process -/

/-- Registrations, creations and updates, interleaved at their awaits, while anything else happens
that leaves the users, the restaurants and the tokens alone. -/
def raceSystem (P : Platform) : System RaceCall RacePhase World Label Exc Response Unit where
  program := RaceCall.code P
  init _ := .start
  monitor := RaceCall.monitor P
  onStart _ _ _ := ()
  onStep _ _ _ _ _ := ()
  env := Background fun w => (w.db.users, w.db.restaurants, w.db.refreshTokens)

instance (P : Platform) : DecidableRel (raceSystem P).env := fun w w' =>
  inferInstanceAs (Decidable
    (Background (fun w => (w.db.users, w.db.restaurants, w.db.refreshTokens)) w w'))

abbrev RaceConfig : Type := Config RaceCall RacePhase World Label Exc Response Unit

def raceStart (db : Database) (now : Time) : RaceConfig := ⟨⟨db, [], now⟩, fun _ => none, ()⟩

/-- What a commit writes is not taken in the meantime. -/
def CommitsUnopposed (P : Platform) :
    System.Guard RaceCall RacePhase World Label Exc Response Unit :=
  fun cfg _ th l => (∃ t, l = .commit t) → th.call.Unopposed P cfg.state.db.toTables th.phase

/-- The search of the call goes on for `n` lookups, if it has to. -/
def RaceCall.SearchesFor (n : ℕ) : RaceCall → Prop
  | .register _ _ _                      => True
  | .create fuel _ _ _ | .update fuel _ _ => n ≤ fuel

/-- The documented outcomes, with the tables at some later time: the row is there, or the call is
told that somebody else has the email or a restaurant. -/
def RaceCall.Settled (P : Platform) (t : Tables) (r : Except Exc Response) : RaceCall → Prop
  | .register email _ draws =>
    ((∃ a, r = .ok (.auth a)) ∧
        ∃ u ∈ t.users, u.id = draws.userId ∧ u.email.val = P.strLower email) ∨
      r = .error (.http 409 "Email already registered") ∧
        ∃ u ∈ t.users, u.email.val = P.strLower email
  | .create _ u _ id =>
    ((∃ x, r = .ok (.restaurant x)) ∧ ∃ x ∈ t.restaurants, x.id = id ∧ x.ownerUserId = u) ∨
      r = .error (.http 409 "User already has a restaurant") ∧
        ∃ x ∈ t.restaurants, x.ownerUserId = u
  | .update _ u _ =>
    ((∃ x, r = .ok (.restaurant x)) ∧ ∃ x ∈ t.restaurants, x.ownerUserId = u) ∨
      r = .error (.http 404 "Restaurant not found")

/-- What the phases say is true, so no call whose texts fit has met a conflict. -/
def NoConflicts (P : Platform) (cfg : RaceConfig) : Prop :=
  ∀ i th, cfg.threads i = some th → th.call.Storable P →
    th.call.Holds P cfg.state.db.toTables th.phase

namespace NoConflicts

variable {P : Platform} {cfg : RaceConfig}

lemma start (db : Database) (now : Time) : NoConflicts P (raceStart db now) := by
  rintro i th ⟨⟩

lemma started (h : NoConflicts P cfg) (i : ℕ) (c : RaceCall) :
    NoConflicts P ((raceSystem P).started cfg i c) := by
  intro j tj hj
  rw [System.started_thread] at hj
  split_ifs at hj
  · cases hj
    intro _
    cases c <;> trivial
  · exact h j tj hj

lemma background (h : NoConflicts P cfg) {w : World} (hw : (w.db.users, w.db.restaurants,
    w.db.refreshTokens) = (cfg.state.db.users, cfg.state.db.restaurants,
      cfg.state.db.refreshTokens)) : NoConflicts P { cfg with state := w } := by
  intro i th hi hstorable
  obtain ⟨husers, hrest⟩ := Prod.mk.inj hw
  obtain ⟨hrestaurants, htokens⟩ := Prod.mk.inj hrest
  exact (h i th hi hstorable).mono (.of_eq husers hrestaurants htokens)

lemma stepped (h : NoConflicts P cfg) {i : ℕ}
    {th : Thread RaceCall RacePhase World Label Exc Response} {l : Label} {w' : World}
    {code : Async Response} (hi : cfg.threads i = some th) (hmay : CommitsUnopposed P cfg i th l)
    (hallow : (th.call.monitor P).allows th.phase l cfg.state w') :
    NoConflicts P ((raceSystem P).stepped cfg i th l w' code) := by
  intro j tj hj hstorable
  rw [System.stepped_thread] at hj
  split_ifs at hj with hji
  · cases hj
    exact hallow.holds hstorable hmay (h i th hi hstorable)
  · exact (h j tj hj hstorable).mono hallow.keeps

end NoConflicts

/-! ### The search ends -/

namespace RaceCall

variable {P : Platform} {call : RaceCall} {φ : RacePhase} {l : Label} {w w' : World}

lemma past_next (h : φ.Past) : (call.next P φ l w w').Past := by
  cases φ with
  | written id =>
    cases l with
    | refresh t =>
      simp only [next]
      split_ifs <;> trivial
    | commit t =>
      simp only [next]
      split_ifs <;> trivial
    | _ => trivial
  | stored =>
    cases l with
    | refresh t =>
      cases call with
      | register email password draws =>
        simp only [next]
        split_ifs <;> trivial
      | _ => trivial
    | _ => trivial
  | conflict => cases l <;> trivial
  | _ => exact h.elim

/-- A search has just begun, or it goes on as before, or one more candidate was found taken. -/
lemma next_eq_searching {old : Option Restaurant} {counter : ℕ}
    (h : call.next P φ l w w' = .searching old counter) :
    counter = 0 ∨ φ = .searching old counter ∨ ∃ c, counter = c + 1 ∧ φ = .searching old c ∧
      ∃ r ∈ w.db.restaurants, r.slug.val = slugCandidate call.baseSlug c := by
  cases φ with
  | start =>
    cases l with
    | select t =>
      left
      cases call with
      | register email password draws =>
        simp only [next, checked] at h
        split_ifs at h
      | create fuel u data id =>
        simp only [next, checked] at h
        split at h <;> cases h
        rfl
      | update fuel u data =>
        simp only [next, checked] at h
        split at h
        · cases h
        · split at h <;> cases h
          rfl
    | _ => cases h
  | searching old' c =>
    cases l with
    | select t =>
      simp only [next] at h
      split_ifs at h with hfree
      cases h
      refine .inr (.inr ⟨c, rfl, rfl, ?_⟩)
      cases hget : Rows.get (·.slug.val) (slugCandidate call.baseSlug c) w.db.restaurants with
      | none =>
        rw [hget] at hfree
        exact absurd rfl hfree
      | some r =>
        have hslug := Rows.get_key hget
        exact ⟨r, Rows.get_mem hget, hslug⟩
    | _ => exact .inr (.inl h)
  | ready old' slug =>
    cases l with
    | commit t =>
      cases call with
      | register email password draws =>
        simp only [next, committed] at h
        split_ifs at h
      | create fuel u data id =>
        simp only [next, committed] at h
        split_ifs at h
      | update fuel u data =>
        simp only [next, committed] at h
        split at h
        · cases h
        · split_ifs at h
    | _ => cases h
  | written id =>
    have hpast := @past_next P call (.written id) l w w' trivial
    rw [h] at hpast
    exact hpast.elim
  | stored =>
    have hpast := @past_next P call .stored l w w' trivial
    rw [h] at hpast
    exact hpast.elim
  | conflict => cases l <;> cases h
  | refused => cases l <;> cases h

end RaceCall

/-- The slugs that were stored so far: as many as at first, and one for each call that is past its
commit. Every candidate that a search has found taken is one of them. -/
structure SlugsSeen (n : ℕ) (cfg : RaceConfig) (slugs : Finset String) (writers : Finset ℕ) :
    Prop where
  stored : ∀ r ∈ cfg.state.db.restaurants, r.slug.val ∈ slugs
  card : slugs.card ≤ n + writers.card
  past : ∀ i ∈ writers, ∃ th, cfg.threads i = some th ∧ th.phase.Past
  tried : ∀ i th old counter, cfg.threads i = some th → th.phase = .searching old counter →
    ∀ j < counter, slugCandidate th.call.baseSlug j ∈ slugs

namespace SlugsSeen

variable {P : Platform} {n : ℕ} {cfg : RaceConfig} {slugs : Finset String} {writers : Finset ℕ}

lemma start (db : Database) (now : Time) :
    SlugsSeen db.restaurants.length (raceStart db now) (db.restaurants.map (·.slug.val)).toFinset
      ∅ where
  stored r hr := List.mem_toFinset.mpr (List.mem_map_of_mem hr)
  card := by
    have h := List.toFinset_card_le (db.restaurants.map (·.slug.val))
    rwa [List.length_map] at h
  past i hi := absurd hi (Finset.notMem_empty i)
  tried i th old counter hi := by cases hi

lemma started (h : SlugsSeen n cfg slugs writers) {i : ℕ} (hi : cfg.threads i = none)
    (c : RaceCall) : SlugsSeen n ((raceSystem P).started cfg i c) slugs writers where
  stored := h.stored
  card := h.card
  past j hj := by
    obtain ⟨th, hth, hpast⟩ := h.past j hj
    have hne : j ≠ i := by
      rintro rfl
      rw [hi] at hth
      cases hth
    exact ⟨th, by rw [System.started_thread, if_neg hne, hth], hpast⟩
  tried j th old counter hj hphase := by
    rw [System.started_thread] at hj
    split_ifs at hj
    · cases hj
      cases hphase
    · exact h.tried j th old counter hj hphase

lemma background (h : SlugsSeen n cfg slugs writers) {w : World}
    (hw : w.db.restaurants = cfg.state.db.restaurants) :
    SlugsSeen n { cfg with state := w } slugs writers :=
  { h with stored := fun r hr => h.stored r (hw ▸ hr) }

/-- A candidate that a step finds taken was stored. -/
lemma tried_stepped (h : SlugsSeen n cfg slugs writers) {i : ℕ}
    {th : Thread RaceCall RacePhase World Label Exc Response} {l : Label} {w' : World}
    {code : Async Response} (hi : cfg.threads i = some th) :
    ∀ j tj old counter, ((raceSystem P).stepped cfg i th l w' code).threads j = some tj →
      tj.phase = .searching old counter →
        ∀ k < counter, slugCandidate tj.call.baseSlug k ∈ slugs := by
  intro j tj old counter hj hphase k hk
  rw [System.stepped_thread] at hj
  split_ifs at hj with hji
  · cases hj
    rcases RaceCall.next_eq_searching hphase with rfl | hsame | ⟨c, rfl, hsearch, r, hr, hslug⟩
    · exact absurd hk (Nat.not_lt_zero k)
    · exact h.tried i th old counter hi hsame k hk
    · rcases Nat.lt_succ_iff_lt_or_eq.mp hk with hk | rfl
      · exact h.tried i th old c hi hsearch k hk
      · exact hslug ▸ h.stored r hr
  · exact h.tried j tj old counter hj hphase k hk

lemma stepped (h : SlugsSeen n cfg slugs writers) {i : ℕ}
    {th : Thread RaceCall RacePhase World Label Exc Response} {l : Label} {w' : World}
    {code : Async Response} (hi : cfg.threads i = some th)
    (hallow : (th.call.monitor P).allows th.phase l cfg.state w') :
    ∃ slugs writers, SlugsSeen n ((raceSystem P).stepped cfg i th l w' code) slugs writers := by
  have hothers : ∀ j ∈ writers, ∃ tj,
      ((raceSystem P).stepped cfg i th l w' code).threads j = some tj ∧ tj.phase.Past := by
    intro j hj
    obtain ⟨tj, htj, hpast⟩ := h.past j hj
    rw [System.stepped_thread]
    split_ifs with hji
    · subst hji
      cases hi.symm.trans htj
      exact ⟨_, rfl, RaceCall.past_next hpast⟩
    · exact ⟨tj, htj, hpast⟩
  rcases hallow.slugs with hsame | ⟨hbefore, hafter, slug, hslug⟩
  · exact ⟨slugs, writers, fun r hr => h.stored r (hsame ▸ hr), h.card, hothers,
      h.tried_stepped hi⟩
  · have hnew : i ∉ writers := by
      intro hmem
      obtain ⟨th', hth', hpast⟩ := h.past i hmem
      cases hi.symm.trans hth'
      exact hbefore hpast
    refine ⟨insert slug slugs, insert i writers, fun r hr => ?_, ?_, ?_, ?_⟩
    · rcases hslug r hr with rfl | ⟨r', hr', heq⟩
      · exact Finset.mem_insert_self _ _
      · exact Finset.mem_insert_of_mem (heq ▸ h.stored r' hr')
    · rw [Finset.card_insert_of_notMem hnew]
      have := Finset.card_insert_le slug slugs
      have := h.card
      omega
    · intro j hj
      rcases Finset.mem_insert.mp hj with rfl | hj
      · exact ⟨_, by rw [System.stepped_thread, if_pos rfl], hafter⟩
      · exact hothers j hj
    · exact fun j tj old counter hj hphase k hk =>
        Finset.mem_insert_of_mem (h.tried_stepped hi j tj old counter hj hphase k hk)

/-- A search has looked up no more candidates than there were restaurants and there are calls. -/
lemma counter_le (h : SlugsSeen n cfg slugs writers) {calls : Finset ℕ}
    (hcalls : ∀ i, cfg.threads i ≠ none → i ∈ calls) {i : ℕ}
    {th : Thread RaceCall RacePhase World Label Exc Response} {old : Option Restaurant}
    {counter : ℕ} (hi : cfg.threads i = some th) (hphase : th.phase = .searching old counter) :
    counter ≤ n + calls.card := by
  have hwriters : writers ⊆ calls := by
    intro j hj
    obtain ⟨tj, htj, -⟩ := h.past j hj
    exact hcalls j (htj ▸ Option.some_ne_none tj)
  have htried : (Finset.range counter).image (slugCandidate th.call.baseSlug) ⊆ slugs := by
    intro s hs
    obtain ⟨j, hj, rfl⟩ := Finset.mem_image.mp hs
    exact h.tried i th old counter hi hphase j (Finset.mem_range.mp hj)
  calc
    counter = ((Finset.range counter).image (slugCandidate th.call.baseSlug)).card := by
      rw [Finset.card_image_of_injective _ (slugCandidate_injective _), Finset.card_range]
    _ ≤ slugs.card := Finset.card_le_card htried
    _ ≤ n + writers.card := h.card
    _ ≤ n + calls.card := Nat.add_le_add_left (Finset.card_le_card hwriters) n

end SlugsSeen

/-! ### Every call is settled -/

/-- A call that has ended in a phase that is true is settled, if its search can go on for longer
than it did. -/
lemma RaceCall.settled_of_ended {P : Platform} {t : Tables} {call : RaceCall} {φ : RacePhase}
    {r : Except Exc Response} {n : ℕ} (hholds : call.Holds P t φ) (hended : call.Ended φ r)
    (hsearch : call.SearchesFor n) (hcounter : ∀ old counter, φ = .searching old counter →
      counter ≤ n) : call.Settled P t r := by
  have hfuel : ∀ fuel, n ≤ fuel → ¬ OutOfFuel fuel φ r := by
    rintro fuel hle ⟨⟨old, hphase⟩, -⟩
    have := hcounter old (fuel + 1) hphase
    omega
  cases call with
  | register email password draws =>
    rcases hended with ⟨rfl, hr⟩ | ⟨rfl, hr⟩
    · exact .inl ⟨hr, hholds.1⟩
    · exact .inr ⟨hr, hholds⟩
  | create fuel u data id =>
    rcases hended with ⟨⟨id', rfl⟩, hr⟩ | ⟨rfl, hr⟩ | hr
    · exact .inl ⟨hr, hholds.2⟩
    · exact .inr ⟨hr, hholds⟩
    · exact absurd hr (hfuel fuel hsearch)
  | update fuel u data =>
    rcases hended with ⟨⟨id, rfl⟩, hr⟩ | ⟨rfl, hr⟩ | hr
    · obtain ⟨x, hx, -, howner⟩ := hholds
      exact .inl ⟨hr, x, hx, howner⟩
    · exact .inr hr
    · exact absurd hr (hfuel fuel hsearch)

/-- In every interleaving where no commit finds taken what it writes, every call whose texts fit
ends as documented: it returns, or it is told that somebody else has the email or a restaurant. No
search needs more lookups than there were restaurants and there are calls. The slugs are distinct
throughout. -/
theorem races_settled (P : Platform) (db : Database) (now : Time) (cfg : RaceConfig)
    (calls : Finset ℕ)
    (h : (raceSystem P).Reach (CommitsUnopposed P) (raceStart db now) cfg)
    (hcalls : ∀ i, cfg.threads i ≠ none → i ∈ calls) :
    SlugsDistinct cfg.state.db.restaurants ∧
      ∀ i th r, cfg.threads i = some th → th.code = .done r → th.call.Storable P →
        th.call.SearchesFor (db.restaurants.length + calls.card) →
          th.call.Settled P cfg.state.db.toTables r := by
  have hprog : ∀ c, ((raceSystem P).monitor c).Accepts (RaceCall.Ends P c)
      ((raceSystem P).program c) ((raceSystem P).init c) := RaceCall.accepts P
  have hidle : ∀ i th, (raceStart db now).threads i = some th →
      ((raceSystem P).monitor th.call).Accepts (th.call.Ends P) th.code th.phase := by
    rintro i th ⟨⟩
  have hinv : NoConflicts P cfg := by
    refine h.monitored hprog hidle (.start db now) ?_ ?_ ?_
    · exact fun cfg i c hI _ => hI.started i c
    · exact fun cfg i th l w' code hI hi hmay hallow => hI.stepped hi hmay hallow
    · exact fun cfg w hI henv => hI.background henv.1
  obtain ⟨slugs, writers, hseen⟩ :
      ∃ slugs writers, SlugsSeen db.restaurants.length cfg slugs writers := by
    refine h.monitored (I := fun cfg => ∃ slugs writers,
        SlugsSeen db.restaurants.length cfg slugs writers) hprog hidle ⟨_, _, .start db now⟩
      ?_ ?_ ?_
    · exact fun cfg i c ⟨slugs, writers, hI⟩ hi => ⟨slugs, writers, hI.started hi c⟩
    · exact fun cfg i th l w' code ⟨_, _, hI⟩ hi _ hallow => hI.stepped hi hallow
    · exact fun cfg w ⟨slugs, writers, hI⟩ henv =>
        ⟨slugs, writers, hI.background (Prod.mk.inj (Prod.mk.inj henv.1).2).1⟩
  refine ⟨cfg.state.db.valid.restaurantSlug, fun i th r hi hcode hstorable hsearch => ?_⟩
  have hholds := hinv i th hi hstorable
  have hends : th.call.Ends P th.phase r := by
    have := h.accepts hprog hidle i th hi
    rwa [hcode] at this
  refine RaceCall.settled_of_ended hholds (hends hstorable fun hconflict => ?_) hsearch
    fun old counter hphase => hseen.counter_le hcalls hi hphase
  rw [hconflict] at hholds
  cases hc : th.call <;> rw [hc] at hholds <;> exact hholds

/-! ### Two calls -/

def fonda : RestaurantCreate := { name := ⟨"Fonda", by decide⟩ }

def tasca : RestaurantCreate := { name := ⟨"Tasca", by decide⟩ }

/-- Two calls are started and then make their steps in the given order. -/
def twoCalls (c c' : RaceCall) (order : List ℕ) : List (Choice RaceCall World) :=
  .start 0 c :: .start 1 c' :: order.map .run

/-- The commit of a creation finds everything free; other commits do not pass. -/
def createUnopposed (cfg : RaceConfig) (i : ℕ) : Bool :=
  match cfg.threads i with
  | some ⟨.create _ u _ id, .ready _ slug, _⟩ =>
    (cfg.state.db.restaurants.all fun r =>
        r.ownerUserId ≠ u ∧ r.id ≠ id ∧ slug.all fun s => r.slug.val ≠ s) &&
      decide (u ∈ cfg.state.db.users.map (·.id))
  | some ⟨.create _ _ _ _, _, _⟩ => true
  | _ => false

lemma commitsUnopposed_of_createUnopposed {cfg : RaceConfig} {i : ℕ}
    {th : Thread RaceCall RacePhase World Label Exc Response} {l : Label}
    (hi : cfg.threads i = some th) (hok : createUnopposed cfg i = true) :
    CommitsUnopposed Platform.plain cfg i th l := by
  obtain ⟨call, φ, code⟩ := th
  intro _
  cases call with
  | create fuel u data id =>
    cases φ with
    | ready old slug =>
      simp only [createUnopposed, hi, Bool.and_eq_true, List.all_eq_true, decide_eq_true_eq,
        Option.all_eq_true] at hok
      refine ⟨fun r hr => (hok.1 r hr).1, ?_, ?_, hok.2⟩
      · rintro s hs ⟨r, hr, hslug, -⟩
        exact (hok.1 r hr).2.2 s hs hslug
      · intro hid
        obtain ⟨r, hr, he⟩ := List.mem_map.mp hid
        exact (hok.1 r hr).2.1 he
    | _ => trivial
  | _ => simp [createUnopposed, hi] at hok

/-- A creation with nothing but a name has returned. -/
def createReturned (cfg : RaceConfig) (i : ℕ) : Bool :=
  match cfg.threads i with
  | some ⟨.create 5 _ ⟨name, none, none, none, none, none⟩ _, _, .done (.ok _)⟩ =>
    decide (nul ∉ name.val.toList)
  | _ => false

/-- Ana and Luis create a restaurant with the same name, and both succeed: neither commit comes
between a lookup of the other and its commit. -/
theorem races_settled_fonda :
    ∃ cfg : RaceConfig, cfg.state.db.restaurants.map (·.slug.val) = ["fonda", "fonda-1"] ∧
      SlugsDistinct cfg.state.db.restaurants ∧ ∀ i, createReturned cfg i = true →
        ∃ th r, cfg.threads i = some th ∧
          th.call.Settled Platform.plain cfg.state.db.toTables (.ok r) := by
  have hrun : ((raceSystem Platform.plain).follow createUnopposed
      (twoCalls (.create 5 1 fonda 10) (.create 5 2 fonda 11) [0, 1, 0, 0, 1, 1, 1, 0, 1])
      (raceStart World.sample.db 0)).any (fun cfg =>
        cfg.state.db.restaurants.map (·.slug.val) = ["fonda", "fonda-1"]) = true := by
    decide +kernel
  obtain ⟨cfg, hreach, hbelow, hslugs⟩ := System.exists_reach_of_follow_below (n := 2)
    (fun _ _ => rfl)
    (fun i c h => by simp [twoCalls] at h; omega)
    (fun _ _ _ _ _ hi hok => commitsUnopposed_of_createUnopposed hi hok) hrun
  obtain ⟨hdistinct, hsettled⟩ :=
    races_settled Platform.plain World.sample.db 0 cfg (Finset.range 2) hreach fun i hi =>
      Finset.mem_range.mpr (not_le.mp fun hle => hi (hbelow i hle))
  refine ⟨cfg, of_decide_eq_true hslugs, hdistinct, fun i hret => ?_⟩
  rw [createReturned] at hret
  split at hret
  · rename_i u name id φ r hi
    have hfuel : World.sample.db.restaurants.length + (Finset.range 2).card ≤ 5 := by decide
    refine ⟨_, r, hi, hsettled i _ _ hi rfl ⟨by decide, ?_⟩ hfuel⟩
    have hname : nul ∉ name.val.toList := of_decide_eq_true hret
    exact ⟨hname, by simp, by simp, by simp, by simp, by simp⟩
  · cases hret

/-- The call has ended with an integrity error. -/
def raceLost (cfg : RaceConfig) (i : ℕ) : Bool :=
  match cfg.threads i with
  | some ⟨_, _, .done (.error (.db .integrity))⟩ => true
  | _                                            => false

/-- Call 1 commits between the lookups of call 0 and its commit: two registrations with one email,
two creations by one owner, two creations by different owners with one name. -/
theorem race_lost :
    (∃ cfg, (raceSystem Platform.plain).Reach System.Always (raceStart Database.empty 0) cfg ∧
      raceLost cfg 0 = true ∧ cfg.state.db.users.map (·.id) = [2]) ∧
    (∃ cfg, (raceSystem Platform.plain).Reach System.Always (raceStart World.sample.db 0) cfg ∧
      raceLost cfg 0 = true ∧ cfg.state.db.restaurants.map (·.ownerUserId) = [1]) ∧
    ∃ cfg, (raceSystem Platform.plain).Reach System.Always (raceStart World.sample.db 0) cfg ∧
      raceLost cfg 0 = true ∧ cfg.state.db.restaurants.map (·.ownerUserId) = [2] := by
  have hemail : ((raceSystem Platform.plain).follow (fun _ _ => true)
      (twoCalls (.register "ana@example.com" "secret" ⟨1, "salt", 100, 101, 102⟩)
        (.register "ana@example.com" "clave" ⟨2, "salt", 103, 104, 105⟩) [0, 1, 1, 0])
      (raceStart Database.empty 0)).any (fun cfg =>
        raceLost cfg 0 && cfg.state.db.users.map (·.id) = [2]) = true := by
    decide +kernel
  have howner : ((raceSystem Platform.plain).follow (fun _ _ => true)
      (twoCalls (.create 5 1 fonda 10) (.create 5 1 tasca 11) [0, 0, 1, 1, 1, 0])
      (raceStart World.sample.db 0)).any (fun cfg =>
        raceLost cfg 0 && cfg.state.db.restaurants.map (·.ownerUserId) = [1]) = true := by
    decide +kernel
  have hslug : ((raceSystem Platform.plain).follow (fun _ _ => true)
      (twoCalls (.create 5 1 fonda 10) (.create 5 2 fonda 11) [0, 0, 1, 1, 1, 0])
      (raceStart World.sample.db 0)).any (fun cfg =>
        raceLost cfg 0 && cfg.state.db.restaurants.map (·.ownerUserId) = [2]) = true := by
    decide +kernel
  obtain ⟨cfg₁, h₁, hp₁⟩ := System.exists_reach_of_follow hemail
  obtain ⟨cfg₂, h₂, hp₂⟩ := System.exists_reach_of_follow howner
  obtain ⟨cfg₃, h₃, hp₃⟩ := System.exists_reach_of_follow hslug
  simp only [Bool.and_eq_true, decide_eq_true_eq] at hp₁ hp₂ hp₃
  exact ⟨⟨cfg₁, h₁, hp₁⟩, ⟨cfg₂, h₂, hp₂⟩, cfg₃, h₃, hp₃⟩

end LiveMenu
