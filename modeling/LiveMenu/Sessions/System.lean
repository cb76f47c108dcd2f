import LiveMenu.Sessions.Phases

/-!
# Interleaved calls of the authentication service

Any number of calls in one process, what a refresh under way knows about the token table, and how
a step takes it from phase to phase.
-/

namespace LiveMenu

/-! ### The process -/

/-- The calls of the authentication service in one process, while anything happens that leaves the
token table alone. -/
def authSystem {G : Type} (P : Platform)
    (onStart : Config AuthCall AuthPhase World Label Exc Response G → ℕ → AuthCall → G)
    (onStep : Config AuthCall AuthPhase World Label Exc Response G → ℕ →
      Thread AuthCall AuthPhase World Label Exc Response → Label → World → G) :
    System AuthCall AuthPhase World Label Exc Response G where
  program call := call.request.code P
  init _ := .start
  monitor call := call.monitor P
  onStart := onStart
  onStep := onStep
  env := Background fun w => w.db.refreshTokens

instance {G : Type} (P : Platform)
    (onStart : Config AuthCall AuthPhase World Label Exc Response G → ℕ → AuthCall → G)
    (onStep : Config AuthCall AuthPhase World Label Exc Response G → ℕ →
      Thread AuthCall AuthPhase World Label Exc Response → Label → World → G) :
    DecidableRel (authSystem P onStart onStep).env :=
  inferInstanceAs (DecidableRel (Background fun w => w.db.refreshTokens))

/-- A process whose calls have not begun. -/
def idle {G : Type} (w : World) (g : G) : Config AuthCall AuthPhase World Label Exc Response G :=
  ⟨w, fun _ => none, g⟩

lemma accepts_of_idle {G : Type} (P : Platform) (w : World) (g : G) :
    ∀ i th, (idle w g).threads i = some th →
      (th.call.monitor P).Accepts th.call.Ends th.code th.phase := by
  rintro i th ⟨⟩

/-- What a refresh of a token with hash `x` knows about the rows in each phase. -/
def AuthPhase.Knows (x : Varchar 64) (rows : List RefreshToken) : AuthPhase → Prop
  | .checked _ | .passed => ∃ k ∈ rows, k.tokenHash = x
  | .loaded k            => k.tokenHash = x ∧ ∃ k' ∈ rows, k.Later k'
  | .issuing | .stored   => ∃ k ∈ rows, k.tokenHash = x ∧ k.revokedAt ≠ none
  | .lost                => False
  | _                    => True

lemma AuthPhase.Knows.later {x : Varchar 64} {rows rows' : List RefreshToken} {φ : AuthPhase}
    (h : φ.Knows x rows) (hrows : LaterRows rows rows') : φ.Knows x rows' := by
  have hkeep : (∃ k ∈ rows, k.tokenHash = x) → ∃ k ∈ rows', k.tokenHash = x := by
    rintro ⟨k, hk, rfl⟩
    obtain ⟨k', hk', hlater⟩ := hrows k hk
    exact ⟨k', hk', hlater.tokenHash⟩
  have hspent : (∃ k ∈ rows, k.tokenHash = x ∧ k.revokedAt ≠ none) →
      ∃ k ∈ rows', k.tokenHash = x ∧ k.revokedAt ≠ none := by
    rintro ⟨k, hk, rfl, hr⟩
    obtain ⟨k', hk', hlater⟩ := hrows k hk
    exact ⟨k', hk', hlater.tokenHash, hlater.revoked hr⟩
  cases φ with
  | checked _ => exact hkeep h
  | passed => exact hkeep h
  | loaded k =>
    obtain ⟨hx, k', hk', hlater⟩ := h
    obtain ⟨k'', hk'', hlater'⟩ := hrows k' hk'
    exact ⟨hx, k'', hk'', hlater.trans hlater'⟩
  | issuing => exact hspent h
  | stored => exact hspent h
  | start => trivial
  | selected _ => trivial
  | ended => trivial
  | failed => trivial
  | lost => exact h

/-- How a step takes a refresh from one phase to another. -/
inductive RefreshStep (P : Platform) (token : String) (w w' : World) :
    AuthPhase → Label → AuthPhase → Prop
  | same (φ : AuthPhase) (l : Label) : RefreshStep P token w w' φ l φ
  | reject (φ : AuthPhase) (l : Label) : RefreshStep P token w w' φ l .failed
  | check {k : RefreshToken}
      (hget : Rows.get (·.tokenHash) (P.sha256 token) w.db.refreshTokens = some k)
      (hlive : k.revokedAt = none) :
      RefreshStep P token w w' .start (.select .refreshTokens) (.checked k)
  | pass {k : RefreshToken} : RefreshStep P token w w' (.checked k) .clock .passed
  | load {k : RefreshToken}
      (hget : Rows.get (·.tokenHash) (P.sha256 token) w.db.refreshTokens = some k) :
      RefreshStep P token w w' .passed (.select .refreshTokens) (.loaded k)
  | vanish (hget : Rows.get (·.tokenHash) (P.sha256 token) w.db.refreshTokens = none) :
      RefreshStep P token w w' .passed (.select .refreshTokens) .lost
  | revoke {k : RefreshToken} (hmem : k.id ∈ w.db.refreshTokens.map (·.id))
      (hrevised : Revised w.db.refreshTokens w'.db.refreshTokens)
      (hrevoked : k.revokedAt = none → ∀ k' ∈ w'.db.refreshTokens, k'.id = k.id →
        k'.revokedAt ≠ none) :
      RefreshStep P token w w' (.loaded k) (.commit .refreshTokens) .issuing
  | missing {k : RefreshToken} (hmem : k.id ∉ w.db.refreshTokens.map (·.id)) :
      RefreshStep P token w w' (.loaded k) (.commit .refreshTokens) .lost
  | store {c : Claims} {k : RefreshToken} (hc : P.jwtDecode token = some c)
      (huser : k.userId = c.sub) (hrows : w'.db.refreshTokens = w.db.refreshTokens ++ [k]) :
      RefreshStep P token w w' .issuing (.commit .refreshTokens) .stored

lemma AuthCall.refresh_step {P : Platform} {token : String} {draws : Draws} {φ : AuthPhase}
    {l : Label} {w w' : World} (hallow : (AuthCall.refresh token draws).allows P φ l w w') :
    RefreshStep P token w w' φ l ((AuthCall.refresh token draws).next P φ l w w') := by
  simp only [next]
  split
  · rename_i hcall
    cases hcall
    split
    · rename_i k hget
      split_ifs with hlive
      · exact .check hget hlive
      · exact .reject _ _
    · exact .reject _ _
  · rename_i hcall
    cases hcall
    split_ifs
    · exact .reject _ _
    · exact .pass
  · rename_i hcall
    cases hcall
    split
    · exact .load ‹_›
    · exact .vanish ‹_›
  · rename_i hcall
    cases hcall
    split_ifs with hmem
    · exact .revoke hmem hallow.1 hallow.2
    · exact .missing hmem
  · rename_i hcall
    cases hcall
    split_ifs with hsame
    · exact .reject _ _
    · obtain ⟨c, k, hc, huser, hrows⟩ := hallow.resolve_left hsame
      exact .store hc huser hrows
  · rename_i hcall
    cases hcall
  · rename_i hcall
    cases hcall
  · exact .same _ _

/-- A step of the call carries its knowledge on. -/
lemma AuthPhase.Knows.step {P : Platform} {token : String} {draws : Draws} {φ : AuthPhase}
    {l : Label} {w w' : World} (h : φ.Knows (P.sha256 token) w.db.refreshTokens)
    (hallow : (AuthCall.refresh token draws).allows P φ l w w') :
    ((AuthCall.refresh token draws).next P φ l w w').Knows (P.sha256 token)
      w'.db.refreshTokens := by
  have hlater := h.later (AuthCall.allows_laterRows hallow)
  have hstep := AuthCall.refresh_step hallow
  generalize (AuthCall.refresh token draws).next P φ l w w' = φ' at hstep
  have hrow : ∀ {k}, Rows.get (·.tokenHash) (P.sha256 token) w.db.refreshTokens = some k →
      ∃ k' ∈ w'.db.refreshTokens, k.Later k' :=
    fun hget => AuthCall.allows_laterRows hallow _ (Rows.get_mem hget)
  cases hstep with
  | same => exact hlater
  | reject => trivial
  | check hget hlive =>
    obtain ⟨k', hk', hl⟩ := hrow hget
    have hkey := Rows.get_key hget
    exact ⟨k', hk', hl.tokenHash.trans hkey⟩
  | pass => exact hlater
  | load hget => exact ⟨Rows.get_key hget, hrow hget⟩
  | vanish hget =>
    obtain ⟨k, hk, hx⟩ := h
    exact Rows.get_eq_none.mp hget k hk hx
  | @revoke k hmem hrevised hrevoked =>
    obtain ⟨hx, k', hk', hl⟩ := hlater
    refine ⟨k', hk', hl.tokenHash.trans hx, ?_⟩
    by_cases hnone : k.revokedAt = none
    · exact hrevoked hnone k' hk' hl.id
    · exact hl.revoked hnone
  | missing hmem =>
    obtain ⟨-, k', hk', hl⟩ := h
    exact hmem (hl.id ▸ List.mem_map_of_mem hk')
  | store hc huser hrows => exact hlater

section

variable {G : Type} {P : Platform}
  {onStart : Config AuthCall AuthPhase World Label Exc Response G → ℕ → AuthCall → G}
  {onStep : Config AuthCall AuthPhase World Label Exc Response G → ℕ →
    Thread AuthCall AuthPhase World Label Exc Response → Label → World → G}
  {may : System.Guard AuthCall AuthPhase World Label Exc Response G}

/-- What every refresh under way knows is true. -/
def Informed (P : Platform) (cfg : Config AuthCall AuthPhase World Label Exc Response G) : Prop :=
  ∀ i th token draws, cfg.threads i = some th → th.call = .refresh token draws →
    th.phase.Knows (P.sha256 token) cfg.state.db.refreshTokens

lemma Informed.started {cfg : Config AuthCall AuthPhase World Label Exc Response G}
    (h : Informed P cfg) (i : ℕ) (c : AuthCall) :
    Informed P ((authSystem P onStart onStep).started cfg i c) := by
  intro j th token draws hj hcall
  rw [System.started_thread] at hj
  split_ifs at hj
  · cases hj
    trivial
  · exact h j th token draws hj hcall

lemma Informed.stepped {cfg : Config AuthCall AuthPhase World Label Exc Response G}
    (h : Informed P cfg) {i : ℕ} {th : Thread AuthCall AuthPhase World Label Exc Response}
    {l : Label} {w' : World} (code : Async Response) (hi : cfg.threads i = some th)
    (hallow : th.call.allows P th.phase l cfg.state w') :
    Informed P ((authSystem P onStart onStep).stepped cfg i th l w' code) := by
  intro j tj token draws hj hcall
  rw [System.stepped_thread] at hj
  split_ifs at hj with hji
  · cases hj
    have hcall : th.call = .refresh token draws := hcall
    have hknows := h i th token draws hi hcall
    rw [hcall] at hallow
    have hstep := hknows.step hallow
    rw [← hcall] at hstep
    exact hstep
  · exact (h j tj token draws hj hcall).later (AuthCall.allows_laterRows hallow)

lemma Informed.background {cfg : Config AuthCall AuthPhase World Label Exc Response G}
    (h : Informed P cfg) {w : World} (hw : w.db.refreshTokens = cfg.state.db.refreshTokens) :
    Informed P { cfg with state := w } := by
  intro i th token draws hi hcall
  have := h i th token draws hi hcall
  rw [← hw] at this
  exact this

end

/-! ### Refreshes of one token -/

/-- Call `i` is a refresh of the token, in a phase with the property. -/
def RefreshIn {G : Type} (cfg : Config AuthCall AuthPhase World Label Exc Response G)
    (token : String) (p : AuthPhase → Prop) (i : ℕ) : Prop :=
  ∃ th draws, cfg.threads i = some th ∧ th.call = .refresh token draws ∧ p th.phase

section

variable {G : Type} {P : Platform} {token : String}
  {onStart : Config AuthCall AuthPhase World Label Exc Response G → ℕ → AuthCall → G}
  {onStep : Config AuthCall AuthPhase World Label Exc Response G → ℕ →
    Thread AuthCall AuthPhase World Label Exc Response → Label → World → G}
  {cfg : Config AuthCall AuthPhase World Label Exc Response G} {p : AuthPhase → Prop}

lemma RefreshIn.of_started {i j : ℕ} {c : AuthCall} (hstart : ¬ p .start)
    (h : RefreshIn ((authSystem P onStart onStep).started cfg i c) token p j) :
    RefreshIn cfg token p j := by
  obtain ⟨th, draws, hj, hcall, hp⟩ := h
  rw [System.started_thread] at hj
  split_ifs at hj
  · cases hj
    exact absurd hp hstart
  · exact ⟨th, draws, hj, hcall, hp⟩

/-- After a step of call `i`, another call is where it was, and call `i` has made a step. -/
lemma RefreshIn.of_stepped {i j : ℕ} {th : Thread AuthCall AuthPhase World Label Exc Response}
    {l : Label} {w' : World} {code : Async Response}
    (hallow : th.call.allows P th.phase l cfg.state w')
    (h : RefreshIn ((authSystem P onStart onStep).stepped cfg i th l w' code) token p j) :
    (j ≠ i ∧ RefreshIn cfg token p j) ∨
      ∃ draws φ', j = i ∧ th.call = .refresh token draws ∧ p φ' ∧
        RefreshStep P token cfg.state w' th.phase l φ' := by
  obtain ⟨tj, draws, hj, hcall, hp⟩ := h
  rw [System.stepped_thread] at hj
  split_ifs at hj with hji
  · cases hj
    have hcall : th.call = .refresh token draws := hcall
    refine .inr ⟨draws, _, hji, hcall, hp, ?_⟩
    rw [hcall] at hallow ⊢
    exact AuthCall.refresh_step hallow
  · exact .inl ⟨hji, tj, draws, hj, hcall, hp⟩

end

/-- Call `i` was a refresh of the token and has returned a new pair. -/
def returned {G : Type} (cfg : Config AuthCall AuthPhase World Label Exc Response G)
    (token : String) (i : ℕ) : Bool :=
  match cfg.threads i with
  | some ⟨.refresh t _, _, .done (.ok _)⟩ => t = token
  | _                                     => false

lemma exists_of_returned {G : Type}
    {cfg : Config AuthCall AuthPhase World Label Exc Response G} {token : String} {i : ℕ}
    (h : returned cfg token i = true) :
    ∃ draws φ a, cfg.threads i = some ⟨.refresh token draws, φ, .done (.ok a)⟩ := by
  rw [returned] at h
  split at h
  · rename_i t draws φ a hi
    exact ⟨draws, φ, a, of_decide_eq_true h ▸ hi⟩
  · cases h

end LiveMenu
