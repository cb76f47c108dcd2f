import LiveMenu.Sessions.System

/-!
# A refresh token is redeemed once, if its checks do not overlap

The check of a refresh token and its revocation are separate steps. Two calls that both pass the
check before one of them revokes both return a new pair; no other schedule does that.
-/

namespace LiveMenu

/-! ### One redemption at a time -/

/-- The token was found unrevoked, and its revocation is not committed yet. -/
def AuthPhase.InWindow : AuthPhase → Prop
  | .checked _ | .passed | .loaded _ => True
  | _                                => False

instance : DecidablePred AuthPhase.InWindow
  | .checked _ | .passed | .loaded _ => .isTrue trivial
  | .start | .issuing | .stored | .selected _ | .ended | .failed | .lost => .isFalse id

/-- The token was redeemed. -/
def AuthPhase.Redeemed : AuthPhase → Prop
  | .issuing | .stored => True
  | _                  => False

/-- No refresh of the token reads its row unrevoked in `is_valid` while another one that has done so
still has its revocation to commit. -/
def ChecksApart {G : Type} (P : Platform) (token : String) :
    System.Guard AuthCall AuthPhase World Label Exc Response G :=
  fun cfg _ th l => (∃ draws, th.call = .refresh token draws) → th.phase = .start →
    l = .select .refreshTokens →
    (∃ k, Rows.get (·.tokenHash) (P.sha256 token) cfg.state.db.refreshTokens = some k ∧
      k.revokedAt = none) →
    ∀ j, ¬ RefreshIn cfg token AuthPhase.InWindow j

/-- At most one refresh of the token is between check and revocation, and none once one has
redeemed it. -/
structure RedeemedOnce {G : Type} (P : Platform) (token : String)
    (cfg : Config AuthCall AuthPhase World Label Exc Response G) : Prop where
  informed : Informed P cfg
  alone : ∀ i j, RefreshIn cfg token AuthPhase.InWindow i →
    RefreshIn cfg token AuthPhase.InWindow j → i = j
  before : ∀ i j, RefreshIn cfg token AuthPhase.InWindow i →
    ¬ RefreshIn cfg token AuthPhase.Redeemed j
  once : ∀ i j, RefreshIn cfg token AuthPhase.Redeemed i →
    RefreshIn cfg token AuthPhase.Redeemed j → i = j

section

variable {P : Platform} {token : String} {w w' : World} {φ φ' : AuthPhase} {l : Label}

lemma RefreshStep.inWindow (h : RefreshStep P token w w' φ l φ') (hφ' : φ'.InWindow) :
    φ.InWindow ∨ φ = .start ∧ l = .select .refreshTokens ∧
      ∃ k, Rows.get (·.tokenHash) (P.sha256 token) w.db.refreshTokens = some k ∧
        k.revokedAt = none := by
  cases h with
  | same => exact .inl hφ'
  | check hget hlive => exact .inr ⟨rfl, rfl, _, hget, hlive⟩
  | pass => exact .inl trivial
  | load => exact .inl trivial
  | reject => exact hφ'.elim
  | vanish => exact hφ'.elim
  | revoke => exact hφ'.elim
  | missing => exact hφ'.elim
  | store => exact hφ'.elim

lemma RefreshStep.redeemed (h : RefreshStep P token w w' φ l φ') (hφ' : φ'.Redeemed) :
    φ.Redeemed ∨ φ.InWindow := by
  cases h with
  | same => exact .inl hφ'
  | revoke => exact .inr trivial
  | store => exact .inl trivial
  | check => exact hφ'.elim
  | pass => exact hφ'.elim
  | load => exact hφ'.elim
  | reject => exact hφ'.elim
  | vanish => exact hφ'.elim
  | missing => exact hφ'.elim

end

lemma AuthPhase.not_redeemed {φ : AuthPhase} (h : φ.InWindow) : ¬ φ.Redeemed := by
  cases φ <;> first | exact id | exact h.elim

section

variable {G : Type} {P : Platform} {token : String}
  {onStart : Config AuthCall AuthPhase World Label Exc Response G → ℕ → AuthCall → G}
  {onStep : Config AuthCall AuthPhase World Label Exc Response G → ℕ →
    Thread AuthCall AuthPhase World Label Exc Response → Label → World → G}
  {cfg : Config AuthCall AuthPhase World Label Exc Response G} {p : AuthPhase → Prop}

/-- A refresh that finds its row unrevoked comes before every redemption. -/
lemma Informed.not_redeemed (h : Informed P cfg) {k : RefreshToken}
    (hget : Rows.get (·.tokenHash) (P.sha256 token) cfg.state.db.refreshTokens = some k)
    (hlive : k.revokedAt = none) (j : ℕ) : ¬ RefreshIn cfg token AuthPhase.Redeemed j := by
  rintro ⟨th, draws, hj, hcall, hp⟩
  have hspent : ∃ k' ∈ cfg.state.db.refreshTokens, k'.tokenHash = P.sha256 token ∧
      k'.revokedAt ≠ none := by
    have hknows := h j th token draws hj hcall
    revert hp hknows
    cases th.phase <;> first | exact fun _ hk => hk | exact fun hp _ => hp.elim
  obtain ⟨k', hk', hx, hr⟩ := hspent
  rw [← hx, Rows.get_of_mem cfg.state.db.valid.refreshTokenHash hk'] at hget
  exact hr (Option.some.inj hget ▸ hlive)

lemma RedeemedOnce.started (h : RedeemedOnce P token cfg) (i : ℕ) (c : AuthCall) :
    RedeemedOnce P token ((authSystem P onStart onStep).started cfg i c) where
  informed := h.informed.started i c
  alone a b ha hb := h.alone a b (ha.of_started id) (hb.of_started id)
  before a b ha hb := h.before a b (ha.of_started id) (hb.of_started id)
  once a b ha hb := h.once a b (ha.of_started id) (hb.of_started id)

lemma RedeemedOnce.stepped (h : RedeemedOnce P token cfg) {i : ℕ}
    {th : Thread AuthCall AuthPhase World Label Exc Response} {l : Label} {w' : World}
    (code : Async Response) (hi : cfg.threads i = some th)
    (hapart : ChecksApart P token cfg i th l)
    (hallow : th.call.allows P th.phase l cfg.state w') :
    RedeemedOnce P token ((authSystem P onStart onStep).stepped cfg i th l w' code) := by
  -- a call in the window was there before, or it enters now and finds nobody there
  have hwindow : ∀ {j}, RefreshIn ((authSystem P onStart onStep).stepped cfg i th l w' code) token
      AuthPhase.InWindow j → RefreshIn cfg token AuthPhase.InWindow j ∨
        (j = i ∧ (∀ j', ¬ RefreshIn cfg token AuthPhase.InWindow j') ∧
          ∀ j', ¬ RefreshIn cfg token AuthPhase.Redeemed j') := by
    intro j hj
    rcases hj.of_stepped hallow with ⟨-, hj⟩ | ⟨draws, φ', rfl, hcall, hφ', hstep⟩
    · exact .inl hj
    · rcases hstep.inWindow hφ' with hφ | ⟨hφ, hl, k, hget, hlive⟩
      · exact .inl ⟨th, draws, hi, hcall, hφ⟩
      · exact .inr ⟨rfl, hapart ⟨draws, hcall⟩ hφ hl ⟨k, hget, hlive⟩,
          h.informed.not_redeemed hget hlive⟩
  have hredeemed : ∀ {j}, RefreshIn ((authSystem P onStart onStep).stepped cfg i th l w' code) token
      AuthPhase.Redeemed j → RefreshIn cfg token AuthPhase.Redeemed j ∨
        (j = i ∧ RefreshIn cfg token AuthPhase.InWindow i) := by
    intro j hj
    rcases hj.of_stepped hallow with ⟨-, hj⟩ | ⟨draws, φ', rfl, hcall, hφ', hstep⟩
    · exact .inl hj
    · rcases hstep.redeemed hφ' with hφ | hφ
      · exact .inl ⟨th, draws, hi, hcall, hφ⟩
      · exact .inr ⟨rfl, th, draws, hi, hcall, hφ⟩
  have hexclusive : ∀ {j}, RefreshIn ((authSystem P onStart onStep).stepped cfg i th l w' code)
      token AuthPhase.InWindow j →
      ¬ RefreshIn ((authSystem P onStart onStep).stepped cfg i th l w' code) token
        AuthPhase.Redeemed j := by
    rintro j ⟨tj, -, hj, -, hp⟩ ⟨tj', -, hj', -, hp'⟩
    rw [hj] at hj'
    cases hj'
    exact AuthPhase.not_redeemed hp hp'
  refine ⟨h.informed.stepped code hi hallow, fun a b ha hb => ?_, fun a b ha hb => ?_,
    fun a b ha hb => ?_⟩
  · rcases hwindow ha with ha' | ⟨rfl, hnone, -⟩ <;> rcases hwindow hb with hb' | ⟨rfl, hnone', -⟩
    · exact h.alone a b ha' hb'
    · exact absurd ha' (hnone' a)
    · exact absurd hb' (hnone b)
    · rfl
  · rcases hwindow ha with ha' | ⟨rfl, hnone, hnone'⟩ <;> rcases hredeemed hb with hb' | ⟨rfl, hb'⟩
    · exact h.before a b ha' hb'
    · exact hexclusive ha (h.alone _ _ hb' ha' ▸ hb)
    · exact hnone' b hb'
    · exact hnone b hb'
  · rcases hredeemed ha with ha' | ⟨rfl, ha'⟩ <;> rcases hredeemed hb with hb' | ⟨rfl, hb'⟩
    · exact h.once a b ha' hb'
    · exact absurd ha' (h.before b a hb')
    · exact absurd hb' (h.before a b ha')
    · rfl

end

/-- In every interleaving of any calls of the service in which the checks of a refresh token are
kept apart, at most one refresh of the token returns a new pair. -/
theorem refresh_returned_once (P : Platform) (token : String) (w : World)
    {cfg : Config AuthCall AuthPhase World Label Exc Response Unit}
    (h : (authSystem P (fun _ _ _ => ()) fun _ _ _ _ _ => ()).Reach (ChecksApart P token)
      (idle w ()) cfg) (i j : ℕ) (hi : returned cfg token i) (hj : returned cfg token j) :
    i = j := by
  have hprog := fun call : AuthCall => AuthCall.accepts (P := P) call
  have hinv : RedeemedOnce P token cfg := by
    refine h.monitored hprog (accepts_of_idle P w ()) ?_ ?_ ?_ ?_
    · refine ⟨?_, fun _ _ ha => ?_, fun _ _ ha => ?_, fun _ _ ha => ?_⟩
      · rintro i th token draws ⟨⟩
      all_goals
        obtain ⟨th, draws, hth, -⟩ := ha
        cases hth
    · exact fun cfg i c hI _ => hI.started i c
    · exact fun cfg i th l w' code hI hi hmay hallow => hI.stepped code hi hmay hallow
    · exact fun cfg w' hI hw => ⟨hI.informed.background hw.1, hI.alone, hI.before, hI.once⟩
  have hstored : ∀ {i}, returned cfg token i → RefreshIn cfg token AuthPhase.Redeemed i := by
    intro i hi
    obtain ⟨draws, φ, a, hth⟩ := exists_of_returned hi
    refine ⟨_, draws, hth, rfl, ?_⟩
    have hknows := hinv.informed i _ token draws hth rfl
    rcases h.accepts hprog (accepts_of_idle P w ()) i _ hth a rfl with hphase | hphase <;>
      rw [hphase] at hknows ⊢
    · trivial
    · exact hknows
  exact hinv.once i j (hstored hi) (hstored hj)

/-! ### Ana's token -/

/-- The process with nothing recorded. -/
abbrev plainAuth : System AuthCall AuthPhase World Label Exc Response Unit :=
  authSystem Platform.plain (fun _ _ _ => ()) fun _ _ _ _ _ => ()

/-- Two refreshes of Ana's token, interleaved as `order` says. -/
def twoRefreshes (order : List ℕ) : List (Choice AuthCall World) :=
  [.start 0 (.refresh anasToken ⟨0, "", 200, 201, 202⟩),
    .start 1 (.refresh anasToken ⟨0, "", 300, 301, 302⟩)] ++ order.map .run

/-- No call below 2 is in its window when a call that has read nothing makes its step. -/
def apart {G : Type} (cfg : Config AuthCall AuthPhase World Label Exc Response G) (i : ℕ) : Bool :=
  (cfg.threads i).all fun th => th.phase ≠ .start ||
    (List.range 2).all fun j => (cfg.threads j).all fun tj => ¬ tj.phase.InWindow

lemma checksApart_of_apart {cfg : Config AuthCall AuthPhase World Label Exc Response Unit} {i : ℕ}
    {th : Thread AuthCall AuthPhase World Label Exc Response} {l : Label}
    (hidle : ∀ j, 2 ≤ j → cfg.threads j = none) (hi : cfg.threads i = some th)
    (hok : apart cfg i = true) : ChecksApart Platform.plain anasToken cfg i th l := by
  rintro - hφ - - j ⟨tj, -, hj, -, hw⟩
  simp only [apart, hi, hφ, Option.all_some, ne_eq, not_true_eq_false, decide_false,
    Bool.false_or, List.all_eq_true, List.mem_range] at hok
  by_cases hj2 : j < 2
  · simpa [hj, hw] using hok j hj2
  · rw [hidle j (Nat.not_lt.mp hj2)] at hj
    cases hj

lemma lt_of_start_twoRefreshes {order : List ℕ} {i : ℕ} {c : AuthCall}
    (h : .start i c ∈ twoRefreshes order) : i < 2 := by
  simp only [twoRefreshes, List.cons_append, List.nil_append, List.mem_cons, List.mem_map,
    Choice.start.injEq, reduceCtorEq, and_false, exists_false, or_false] at h
  omega

/-- One refresh after the other: the first returns a new pair and is the only one that does. -/
theorem refresh_returned_once_ana :
    ∃ cfg, plainAuth.Reach (ChecksApart Platform.plain anasToken) (idle anaRegistered ()) cfg ∧
      returned cfg anasToken 0 = true ∧ ∀ j, returned cfg anasToken j = true → 0 = j := by
  have h : (plainAuth.follow apart (twoRefreshes (List.replicate 11 0 ++ List.replicate 2 1))
      (idle anaRegistered ())).any (fun cfg => returned cfg anasToken 0) = true := by
    decide +kernel
  obtain ⟨cfg, hreach, -, h0⟩ := System.exists_reach_of_follow_below (fun _ _ => rfl)
    (fun _ _ => lt_of_start_twoRefreshes) (fun _ _ _ _ => checksApart_of_apart) h
  exact ⟨cfg, hreach, h0, fun j hj =>
    refresh_returned_once Platform.plain anasToken anaRegistered hreach 0 j h0 hj⟩

/-- Call 0 runs up to its revocation, call 1 to its end, call 0 to its end: both return a new
pair. -/
theorem refresh_returned_twice :
    ∃ cfg, plainAuth.Reach System.Always (idle anaRegistered ()) cfg ∧
      (returned cfg anasToken 0 && returned cfg anasToken 1) = true := by
  have h : (plainAuth.follow (fun _ _ => true)
      (twoRefreshes (List.replicate 3 0 ++ List.replicate 11 1 ++ List.replicate 8 0))
      (idle anaRegistered ())).any
        (fun cfg => returned cfg anasToken 0 && returned cfg anasToken 1) = true := by
    decide +kernel
  exact System.exists_reach_of_follow h

end LiveMenu
