import LiveMenu.Sessions.Rotation

/-!
# Logout ends every session, if no refresh is under way

`revoke_all_for_user` revokes the rows it has read. A refresh that has passed its check before can
store a new row after them, and the session goes on. If no refresh of the user's tokens is under
way when the rows are read, and none passes its check before they are revoked, none survives.
-/

namespace LiveMenu

/-! ### The family of a session -/

/-- The call is a refresh of one of `u`'s tokens, with its hash in the family. -/
def FamilyCall (P : Platform) (u : Uuid) (family : List (Varchar 64)) (call : AuthCall) : Prop :=
  ∃ token draws, call = .refresh token draws ∧ P.sha256 token ∈ family ∧
    (P.jwtDecode token).map (·.sub) = some u

instance (P : Platform) (u : Uuid) (family : List (Varchar 64)) :
    DecidablePred (FamilyCall P u family)
  | .refresh token draws =>
    decidable_of_iff (P.sha256 token ∈ family ∧ (P.jwtDecode token).map (·.sub) = some u)
      ⟨fun h => ⟨token, draws, rfl, h⟩, fun ⟨_, _, hcall, h⟩ => by cases hcall; exact h⟩
  | .register .. | .login .. | .logout _ => .isFalse fun ⟨_, _, hcall, _⟩ => nomatch hcall

/-- When call `i₀` begins, the family is the refresh tokens stored for `u`. -/
def familyStart (u : Uuid) (i₀ : ℕ)
    (cfg : Config AuthCall AuthPhase World Label Exc Response (List (Varchar 64))) (i : ℕ)
    (_ : AuthCall) : List (Varchar 64) :=
  if i = i₀ then
    (cfg.state.db.refreshTokens.filter fun k => k.userId = u).map (·.tokenHash)
  else cfg.ghost

/-- What a refresh of a token of the family stores belongs to the family. -/
def familyStep (P : Platform) (u : Uuid)
    (cfg : Config AuthCall AuthPhase World Label Exc Response (List (Varchar 64))) (_ : ℕ)
    (th : Thread AuthCall AuthPhase World Label Exc Response) (_ : Label) (w' : World) :
    List (Varchar 64) :=
  if FamilyCall P u cfg.ghost th.call then
    cfg.ghost ++ (w'.db.refreshTokens.map (·.tokenHash)).filter fun x =>
      x ∉ cfg.state.db.refreshTokens.map (·.tokenHash)
  else cfg.ghost

/-- The calls of the authentication service, with the refresh tokens of `u` that were issued before
call `i₀` or obtained from them by refreshes. -/
abbrev sessionSystem (P : Platform) (u : Uuid) (i₀ : ℕ) :
    System AuthCall AuthPhase World Label Exc Response (List (Varchar 64)) :=
  authSystem P (familyStart u i₀) (familyStep P u)

/-! ### Refreshes under way -/

/-- The token was found unrevoked, and its successor is not stored yet. -/
def AuthPhase.UnderWay (φ : AuthPhase) : Prop := φ.InWindow ∨ φ = .issuing

/-- No refresh of the family is under way when call `i₀` reads the rows it will revoke, and none
reads its row unrevoked between that and the commit. -/
def LogoutApart (P : Platform) (u : Uuid) (i₀ : ℕ) :
    System.Guard AuthCall AuthPhase World Label Exc Response (List (Varchar 64)) :=
  fun cfg i th l => th.phase = .start → l = .select .refreshTokens →
    (i = i₀ → ∀ j tj, cfg.threads j = some tj → FamilyCall P u cfg.ghost tj.call →
      ¬ tj.phase.UnderWay) ∧
    (FamilyCall P u cfg.ghost th.call →
      (∀ token draws, th.call = .refresh token draws → ∃ k, k.revokedAt = none ∧
        Rows.get (·.tokenHash) (P.sha256 token) cfg.state.db.refreshTokens = some k) →
      ∀ t₀ ks, cfg.threads i₀ = some t₀ → t₀.phase ≠ .selected ks)

/-- No refresh of the family is under way. -/
def Quiet (P : Platform) (u : Uuid)
    (cfg : Config AuthCall AuthPhase World Label Exc Response (List (Varchar 64))) : Prop :=
  ∀ j tj, cfg.threads j = some tj → FamilyCall P u cfg.ghost tj.call → ¬ tj.phase.UnderWay

/-- What the logout has achieved in each phase: it has read all live rows of the family, then they
are revoked. -/
def Achieved (quiet : Prop) (rows : List RefreshToken) (family : List (Varchar 64)) :
    AuthPhase → Prop
  | .selected ks => quiet ∧ (∀ k ∈ ks, k.id ∈ rows.map (·.id)) ∧
    ∀ k ∈ rows, k.tokenHash ∈ family → k.revokedAt = none → ∃ k' ∈ ks, k.id = k'.id
  | .ended       => quiet ∧ ∀ k ∈ rows, k.tokenHash ∈ family → k.revokedAt ≠ none
  | .lost        => False
  | _            => True

/-- The family is stored for `u`, and the logout has done what its phase says. -/
structure Ending (P : Platform) (u : Uuid) (i₀ : ℕ)
    (cfg : Config AuthCall AuthPhase World Label Exc Response (List (Varchar 64))) : Prop where
  informed : Informed P cfg
  owned : ∀ x ∈ cfg.ghost, ∃ k ∈ cfg.state.db.refreshTokens, k.tokenHash = x ∧ k.userId = u
  achieved : ∀ t₀, cfg.threads i₀ = some t₀ → t₀.call = .logout u →
    Achieved (Quiet P u cfg) cfg.state.db.refreshTokens cfg.ghost t₀.phase

/-! ### Rows and steps -/

section

variable {rows rows' : List RefreshToken} {family : List (Varchar 64)} {quiet quiet' : Prop}

/-- A later row with a hash of the family is an earlier one, revised. -/
lemma LaterRows.earlier (h : LaterRows rows rows') (hnd : (rows'.map (·.tokenHash)).Nodup)
    {k : RefreshToken} (hk : k ∈ rows') (hx : ∃ k₀ ∈ rows, k₀.tokenHash = k.tokenHash) :
    ∃ k₀ ∈ rows, k₀.Later k := by
  obtain ⟨k₀, hk₀, hx⟩ := hx
  obtain ⟨k', hk', hlater⟩ := h k₀ hk₀
  obtain rfl := Rows.eq_of_key_eq hnd hk' hk (hlater.tokenHash.trans hx)
  exact ⟨k₀, hk₀, hlater⟩

/-- What was achieved stays so while the rows are only revised and others are added. -/
lemma Achieved.later {φ : AuthPhase} (h : Achieved quiet rows family φ)
    (hrows : LaterRows rows rows') (hnd : (rows'.map (·.tokenHash)).Nodup)
    (howned : ∀ x ∈ family, ∃ k ∈ rows, k.tokenHash = x)
    (hquiet : (∃ ks, φ = .selected ks) ∨ φ = .ended → quiet → quiet') :
    Achieved quiet' rows' family φ := by
  cases φ with
  | selected ks =>
    obtain ⟨hq, hmem, hall⟩ := h
    refine ⟨hquiet (.inl ⟨ks, rfl⟩) hq, fun k hk => ?_, fun k hk hx hlive => ?_⟩
    · obtain ⟨k', hk', hid⟩ := List.mem_map.mp (hmem k hk)
      obtain ⟨k'', hk'', hlater⟩ := hrows k' hk'
      exact hid ▸ hlater.id ▸ List.mem_map_of_mem hk''
    · obtain ⟨k₀, hk₀, hlater⟩ := hrows.earlier hnd hk (howned _ hx)
      rw [hlater.tokenHash] at hx
      obtain ⟨k', hk', hid⟩ := hall k₀ hk₀ hx (of_not_not fun hr => hlater.revoked hr hlive)
      exact ⟨k', hk', hlater.id.trans hid⟩
  | ended =>
    refine ⟨hquiet (.inr rfl) h.1, fun k hk hx => ?_⟩
    obtain ⟨k₀, hk₀, hlater⟩ := hrows.earlier hnd hk (howned _ hx)
    exact hlater.revoked (h.2 k₀ hk₀ (hlater.tokenHash ▸ hx))
  | lost => exact h
  | _ => trivial

end

/-- How a step takes a logout from one phase to another. -/
inductive LogoutStep (u : Uuid) (w w' : World) : AuthPhase → Label → AuthPhase → Prop
  | same (φ : AuthPhase) (l : Label) (hrows : w'.db.refreshTokens = w.db.refreshTokens) :
      LogoutStep u w w' φ l φ
  | select (hrows : w'.db.refreshTokens = w.db.refreshTokens) :
      LogoutStep u w w' .start (.select .refreshTokens)
        (.selected (w.db.refreshTokens.filter fun k => k.userId = u ∧ k.revokedAt.isNone))
  | revoke {ks : List RefreshToken} (hrevised : Revised w.db.refreshTokens w'.db.refreshTokens)
      (hrevoked : ∀ k ∈ ks, ∀ k' ∈ w'.db.refreshTokens, k'.id = k.id → k'.revokedAt ≠ none) :
      LogoutStep u w w' (.selected ks) (.commit .refreshTokens) .ended
  | missing {ks : List RefreshToken} (hmem : ¬ ∀ k ∈ ks, k.id ∈ w.db.refreshTokens.map (·.id)) :
      LogoutStep u w w' (.selected ks) (.commit .refreshTokens) .lost

lemma AuthCall.logout_step {P : Platform} {u : Uuid} {φ : AuthPhase} {l : Label} {w w' : World}
    (hallow : (AuthCall.logout u).allows P φ l w w') :
    LogoutStep u w w' φ l ((AuthCall.logout u).next P φ l w w') := by
  cases φ with
  | start =>
    cases l with
    | select t =>
      cases t with
      | refreshTokens => exact .select hallow
      | _ => exact .same _ _ hallow
    | _ => exact .same _ _ hallow
  | selected ks =>
    cases l with
    | commit t =>
      cases t with
      | refreshTokens =>
        simp only [next]
        split_ifs with hmem
        · exact .revoke hallow.1 (hallow.2 hmem)
        · exact .missing hmem
      | _ => exact .same _ _ hallow
    | _ => exact .same _ _ hallow
  | _ => exact .same _ _ hallow

/-- The logout achieves what its next phase says. -/
lemma LogoutStep.achieved {u : Uuid} {w w' : World} {φ φ' : AuthPhase} {l : Label}
    {family : List (Varchar 64)} {quiet quiet' : Prop} (hstep : LogoutStep u w w' φ l φ')
    (h : Achieved quiet w.db.refreshTokens family φ)
    (hlater : LaterRows w.db.refreshTokens w'.db.refreshTokens)
    (howned : ∀ x ∈ family, ∃ k ∈ w.db.refreshTokens, k.tokenHash = x ∧ k.userId = u)
    (hquiet : quiet → quiet') (hselect : φ = .start → l = .select .refreshTokens → quiet') :
    Achieved quiet' w'.db.refreshTokens family φ' := by
  have hhashes : ∀ x ∈ family, ∃ k ∈ w.db.refreshTokens, k.tokenHash = x := fun x hx =>
    (howned x hx).imp fun _ h => ⟨h.1, h.2.1⟩
  cases hstep with
  | same => exact h.later hlater w'.db.valid.refreshTokenHash hhashes fun _ => hquiet
  | select hrows =>
    rw [hrows]
    refine ⟨hselect rfl rfl, fun k hk => ?_, fun k hk hx hlive => ⟨k, ?_, rfl⟩⟩
    · exact List.mem_map_of_mem (List.mem_filter.mp hk).1
    · obtain ⟨k₀, hk₀, hx₀, huser⟩ := howned _ hx
      obtain rfl := Rows.eq_of_key_eq w.db.valid.refreshTokenHash hk₀ hk hx₀
      exact List.mem_filter.mpr ⟨hk, decide_eq_true ⟨huser, by rw [hlive]; rfl⟩⟩
  | revoke hrevised hrevoked =>
    refine ⟨hquiet h.1, fun k hk hx => ?_⟩
    obtain ⟨k₀, hk₀, hl⟩ := hlater.earlier w'.db.valid.refreshTokenHash hk (hhashes _ hx)
    by_cases hlive : k₀.revokedAt = none
    · obtain ⟨k', hk', hid⟩ := h.2.2 k₀ hk₀ (hl.tokenHash ▸ hx) hlive
      exact hrevoked k' hk' k hk (hl.id.trans hid)
    · exact hl.revoked hlive
  | missing hmem => exact absurd h.2.1 hmem

/-- A refresh changes no hash of the table but in the step that stores its new row. -/
lemma AuthCall.refresh_rows {P : Platform} {token : String} {draws : Draws} {φ : AuthPhase}
    {l : Label} {w w' : World} (hallow : (AuthCall.refresh token draws).allows P φ l w w')
    (hφ : φ ≠ .lost) :
    w'.db.refreshTokens.map (·.tokenHash) = w.db.refreshTokens.map (·.tokenHash) ∨
      φ = .issuing ∧ ∃ c k, P.jwtDecode token = some c ∧ k.userId = c.sub ∧
        w'.db.refreshTokens = w.db.refreshTokens ++ [k] := by
  have hsame : w'.db.refreshTokens = w.db.refreshTokens →
      w'.db.refreshTokens.map (·.tokenHash) = w.db.refreshTokens.map (·.tokenHash) :=
    congrArg (List.map RefreshToken.tokenHash)
  cases φ with
  | loaded k =>
    cases l with
    | commit t =>
      cases t with
      | refreshTokens =>
        obtain ⟨⟨f, hf, hrows⟩, -⟩ := hallow
        rw [hrows, List.map_map]
        exact .inl (List.map_congr_left fun k _ => (hf k).tokenHash)
      | _ => exact .inl (hsame hallow)
    | _ => exact .inl (hsame hallow)
  | issuing =>
    cases l with
    | commit t =>
      cases t with
      | refreshTokens => exact hallow.imp hsame fun h => ⟨rfl, h⟩
      | _ => exact .inl (hsame hallow)
    | _ => exact .inl (hsame hallow)
  | lost => exact absurd rfl hφ
  | _ => exact .inl (hsame hallow)

section

variable {P : Platform} {u : Uuid} {i₀ : ℕ}
  {cfg : Config AuthCall AuthPhase World Label Exc Response (List (Varchar 64))}

/-- The family grows by the row that a refresh of one of its tokens stores for `u`, else it stays
the same. -/
lemma familyStep_cases (h : Informed P cfg) {i : ℕ}
    {th : Thread AuthCall AuthPhase World Label Exc Response} {l : Label} {w' : World}
    (hi : cfg.threads i = some th) (hallow : th.call.allows P th.phase l cfg.state w') :
    familyStep P u cfg i th l w' = cfg.ghost ∨
      FamilyCall P u cfg.ghost th.call ∧ th.phase.UnderWay ∧
        ∀ x ∈ familyStep P u cfg i th l w', x ∈ cfg.ghost ∨
          ∃ k ∈ w'.db.refreshTokens, k.tokenHash = x ∧ k.userId = u := by
  rw [familyStep]
  split_ifs with hfamily
  · obtain ⟨token, draws, hcall, hx, hsub⟩ := hfamily
    have hknows := h i th token draws hi hcall
    have hlost : th.phase ≠ .lost := by
      intro hφ
      rw [hφ] at hknows
      exact hknows
    rw [hcall] at hallow
    rcases AuthCall.refresh_rows hallow hlost with hsame | ⟨hφ, c, k, hc, huser, hrows⟩
    · refine .inl ?_
      rw [hsame, List.filter_eq_nil_iff.mpr, List.append_nil]
      intro x hx
      simpa using hx
    · refine .inr ⟨⟨token, draws, hcall, hx, hsub⟩, .inr hφ, fun x hx => ?_⟩
      rcases List.mem_append.mp hx with hx | hx
      · exact .inl hx
      · obtain ⟨hx, hnew⟩ := List.mem_filter.mp hx
        obtain ⟨k', hk', rfl⟩ := List.mem_map.mp hx
        refine .inr ⟨k', hk', rfl, ?_⟩
        rw [hrows] at hk'
        rcases List.mem_append.mp hk' with hk' | hk'
        · exact absurd (List.mem_map_of_mem hk') (of_decide_eq_true hnew)
        · rw [List.mem_singleton.mp hk', huser]
          rw [hc] at hsub
          exact Option.some.inj hsub
  · exact .inl rfl

lemma Ending.hashes (h : Ending P u i₀ cfg) :
    ∀ x ∈ cfg.ghost, ∃ k ∈ cfg.state.db.refreshTokens, k.tokenHash = x := by
  intro x hx
  obtain ⟨k, hk, hkx, -⟩ := h.owned x hx
  exact ⟨k, hk, hkx⟩

lemma Ending.started (h : Ending P u i₀ cfg) (i : ℕ) (c : AuthCall) :
    Ending P u i₀ ((sessionSystem P u i₀).started cfg i c) := by
  refine ⟨h.informed.started i c, fun x hx => ?_, fun t₀ ht₀ hcall => ?_⟩
  · change x ∈ familyStart u i₀ cfg i c at hx
    rw [familyStart] at hx
    split_ifs at hx with hii
    · obtain ⟨k, hk, rfl⟩ := List.mem_map.mp hx
      obtain ⟨hk, huser⟩ := List.mem_filter.mp hk
      exact ⟨k, hk, rfl, of_decide_eq_true huser⟩
    · exact h.owned x hx
  · rw [System.started_thread] at ht₀
    split_ifs at ht₀ with hii
    · cases ht₀
      trivial
    · have hghost : ((sessionSystem P u i₀).started cfg i c).ghost = cfg.ghost :=
        if_neg (Ne.symm hii)
      rw [hghost]
      refine (h.achieved t₀ ht₀ hcall).later (.refl _) cfg.state.db.valid.refreshTokenHash h.hashes
        fun _ hquiet j tj hj hfamily => ?_
      rw [System.started_thread] at hj
      rw [hghost] at hfamily
      split_ifs at hj
      · cases hj
        rintro (hφ | hφ)
        · exact hφ
        · cases hφ
      · exact hquiet j tj hj hfamily

/-- A refresh of the family that comes under way has found its row unrevoked. -/
lemma underWay_of_step {token : String} {w w' : World} {φ φ' : AuthPhase} {l : Label}
    (h : RefreshStep P token w w' φ l φ') (hφ' : φ'.UnderWay) :
    φ.UnderWay ∨ φ = .start ∧ l = .select .refreshTokens ∧
      ∃ k, Rows.get (·.tokenHash) (P.sha256 token) w.db.refreshTokens = some k ∧
        k.revokedAt = none := by
  rcases hφ' with hφ' | rfl
  · exact (h.inWindow hφ').imp_left .inl
  · rcases h.redeemed trivial with hφ | hφ
    · cases h with
      | same => exact .inl (.inr rfl)
      | revoke => exact .inl (.inl trivial)
    · exact .inl (.inl hφ)

/-- The step of another call leaves quiet what is quiet. -/
lemma Ending.quiet_stepped (h : Ending P u i₀ cfg) {i : ℕ}
    {th t₀ : Thread AuthCall AuthPhase World Label Exc Response} {l : Label} {w' : World}
    (code : Async Response) (hi : cfg.threads i = some th) (h₀ : cfg.threads i₀ = some t₀)
    (hcall₀ : t₀.call = .logout u) (hapart : LogoutApart P u i₀ cfg i th l)
    (hallow : th.call.allows P th.phase l cfg.state w')
    (hghost : familyStep P u cfg i th l w' = cfg.ghost)
    (hφ : (∃ ks, t₀.phase = .selected ks) ∨ t₀.phase = .ended) (hquiet : Quiet P u cfg) :
    Quiet P u ((sessionSystem P u i₀).stepped cfg i th l w' code) := by
  intro j tj hj hfamily hunder
  change FamilyCall P u (familyStep P u cfg i th l w') tj.call at hfamily
  rw [hghost] at hfamily
  rw [System.stepped_thread] at hj
  split_ifs at hj with hji
  · cases hj
    obtain ⟨token, draws, hcall, hx, hsub⟩ := id hfamily
    have hstep : RefreshStep P token cfg.state w' th.phase l (th.call.next P th.phase l cfg.state
        w') := by
      rw [hcall] at hallow ⊢
      exact AuthCall.refresh_step hallow
    rcases underWay_of_step hstep hunder with hφ' | ⟨hstart, hl, k, hget, hlive⟩
    · exact hquiet i th hi hfamily hφ'
    · have hachieved := h.achieved t₀ h₀ hcall₀
      rcases hφ with ⟨ks, hφ⟩ | hφ
      · refine (hapart hstart hl).2 hfamily (fun token' draws' hcall' => ?_) t₀ ks h₀ hφ
        rw [hcall] at hcall'
        cases hcall'
        exact ⟨k, hlive, hget⟩
      · -- after the commit the row is revoked
        rw [hφ] at hachieved
        have hkey := Rows.get_key hget
        exact hachieved.2 k (Rows.get_mem hget) (hkey ▸ hx) hlive
  · exact hquiet j tj hj hfamily hunder

lemma Ending.stepped (h : Ending P u i₀ cfg) {i : ℕ}
    {th : Thread AuthCall AuthPhase World Label Exc Response} {l : Label} {w' : World}
    (code : Async Response) (hi : cfg.threads i = some th)
    (hapart : LogoutApart P u i₀ cfg i th l)
    (hallow : th.call.allows P th.phase l cfg.state w') :
    Ending P u i₀ ((sessionSystem P u i₀).stepped cfg i th l w' code) := by
  have hlater := AuthCall.allows_laterRows hallow
  have hcases := familyStep_cases (u := u) h.informed hi hallow
  refine ⟨h.informed.stepped code hi hallow, fun x hx => ?_, fun t₀ ht₀ hcall => ?_⟩
  · have hold : x ∈ cfg.ghost → ∃ k ∈ w'.db.refreshTokens, k.tokenHash = x ∧ k.userId = u := by
      intro hx
      obtain ⟨k, hk, rfl, huser⟩ := h.owned x hx
      obtain ⟨k', hk', hl⟩ := hlater k hk
      exact ⟨k', hk', hl.tokenHash, hl.userId.trans huser⟩
    change x ∈ familyStep P u cfg i th l w' at hx
    rcases hcases with hsame | ⟨-, -, hgrow⟩
    · exact hold (hsame ▸ hx)
    · exact (hgrow x hx).elim hold id
  · have hghost : ((sessionSystem P u i₀).stepped cfg i th l w' code).ghost
        = familyStep P u cfg i th l w' := rfl
    rw [System.stepped_thread] at ht₀
    split_ifs at ht₀ with hii
    · -- a step of the logout itself
      cases ht₀
      subst hii
      have hcall : th.call = .logout u := hcall
      have hsame : familyStep P u cfg i₀ th l w' = cfg.ghost := by
        apply if_neg
        rw [hcall]
        rintro ⟨_, _, hcall', -⟩
        cases hcall'
      have hquiet : Quiet P u cfg →
          Quiet P u ((sessionSystem P u i₀).stepped cfg i₀ th l w' code) := by
        intro hquiet j tj hj hfamily
        rw [hghost, hsame] at hfamily
        rw [System.stepped_thread] at hj
        split_ifs at hj with hji
        · cases hj
          obtain ⟨_, _, hcall', -⟩ := hfamily
          cases hcall.symm.trans hcall'
        · exact hquiet j tj hj hfamily
      rw [hghost, hsame]
      have hachieved := h.achieved th hi hcall
      have hstep : LogoutStep u cfg.state w' th.phase l
          (th.call.next P th.phase l cfg.state w') := by
        rw [hcall] at hallow ⊢
        exact AuthCall.logout_step hallow
      exact hstep.achieved hachieved hlater h.owned hquiet fun hstart hl =>
        hquiet ((hapart hstart hl).1 rfl)
    · -- a step of another call
      rw [hghost]
      have hachieved := h.achieved t₀ ht₀ hcall
      rcases hcases with hsame | ⟨hfamily, hunder, -⟩
      · rw [hsame]
        exact hachieved.later hlater w'.db.valid.refreshTokenHash h.hashes fun hφ hquiet =>
          h.quiet_stepped code hi ht₀ hcall hapart hallow hsame hφ hquiet
      · -- the family only grows while the logout has not read the rows
        revert hachieved
        cases t₀.phase with
        | selected ks => exact fun hselected => (hselected.1 i th hi hfamily hunder).elim
        | ended => exact fun hended => (hended.1 i th hi hfamily hunder).elim
        | lost => exact id
        | _ => exact fun _ => trivial

lemma Ending.background (h : Ending P u i₀ cfg) {w : World}
    (hw : w.db.refreshTokens = cfg.state.db.refreshTokens) :
    Ending P u i₀ { cfg with state := w } := by
  refine ⟨h.informed.background hw, fun x hx => ?_, fun t₀ ht₀ hcall => ?_⟩
  · show ∃ k ∈ w.db.refreshTokens, _
    rw [hw]
    exact h.owned x hx
  · show Achieved (Quiet P u cfg) w.db.refreshTokens _ _
    rw [hw]
    exact h.achieved t₀ ht₀ hcall

end

/-! ### After the logout -/

/-- Call `i` was a logout of `u` and has returned. -/
def loggedOut {G : Type} (cfg : Config AuthCall AuthPhase World Label Exc Response G) (u : Uuid)
    (i : ℕ) : Bool :=
  match cfg.threads i with
  | some ⟨.logout v, _, .done (.ok _)⟩ => v = u
  | _                                  => false

lemma exists_of_loggedOut {G : Type}
    {cfg : Config AuthCall AuthPhase World Label Exc Response G} {u : Uuid} {i : ℕ}
    (h : loggedOut cfg u i = true) : ∃ φ a, cfg.threads i = some ⟨.logout u, φ, .done (.ok a)⟩ := by
  rw [loggedOut] at h
  split at h
  · rename_i v φ a hi
    exact ⟨φ, a, of_decide_eq_true h ▸ hi⟩
  · cases h

/-- The token has passed the check of its row. -/
def AuthPhase.Accepted (φ : AuthPhase) : Prop := φ.InWindow ∨ φ.Redeemed

/-- The logout is over, and no `late` refresh gets a token of the family past its check. -/
structure Ended (P : Platform) (u : Uuid) (i₀ : ℕ) (late : ℕ → Prop)
    (cfg : Config AuthCall AuthPhase World Label Exc Response (List (Varchar 64))) : Prop where
  ending : Ending P u i₀ cfg
  ended : ∃ t₀, cfg.threads i₀ = some t₀ ∧ t₀.call = .logout u ∧ t₀.phase = .ended
  rejected : ∀ j token, late j → P.sha256 token ∈ cfg.ghost →
    ¬ RefreshIn cfg token AuthPhase.Accepted j

section

variable {P : Platform} {u : Uuid} {i₀ : ℕ} {late : ℕ → Prop}
  {cfg : Config AuthCall AuthPhase World Label Exc Response (List (Varchar 64))}

lemma Ended.revoked (h : Ended P u i₀ late cfg) :
    Quiet P u cfg ∧ ∀ k ∈ cfg.state.db.refreshTokens, k.tokenHash ∈ cfg.ghost →
      k.revokedAt ≠ none := by
  obtain ⟨t₀, ht₀, hcall, hφ⟩ := h.ended
  have hachieved := h.ending.achieved t₀ ht₀ hcall
  rw [hφ] at hachieved
  exact hachieved

lemma Ended.started (h : Ended P u i₀ late cfg) {i : ℕ} (c : AuthCall)
    (hi : cfg.threads i = none) :
    Ended P u i₀ late ((sessionSystem P u i₀).started cfg i c) := by
  obtain ⟨t₀, ht₀, hcall, hφ⟩ := h.ended
  have hne : i₀ ≠ i := by
    rintro rfl
    rw [hi] at ht₀
    cases ht₀
  have hghost : ((sessionSystem P u i₀).started cfg i c).ghost = cfg.ghost := if_neg hne.symm
  refine ⟨h.ending.started i c, ⟨t₀, ?_, hcall, hφ⟩, fun j token hj hx haccepted => ?_⟩
  · rw [System.started_thread, if_neg hne, ht₀]
  · rw [hghost] at hx
    refine h.rejected j token hj hx (haccepted.of_started ?_)
    exact fun hstart => hstart.elim id id

lemma Ended.stepped (h : Ended P u i₀ late cfg) {i : ℕ}
    {th : Thread AuthCall AuthPhase World Label Exc Response} {l : Label} {w' : World}
    (code : Async Response) (hi : cfg.threads i = some th)
    (hapart : LogoutApart P u i₀ cfg i th l)
    (hallow : th.call.allows P th.phase l cfg.state w') :
    Ended P u i₀ late ((sessionSystem P u i₀).stepped cfg i th l w' code) := by
  obtain ⟨hquiet, hrevoked⟩ := h.revoked
  have hghost : ((sessionSystem P u i₀).stepped cfg i th l w' code).ghost = cfg.ghost := by
    rcases familyStep_cases (u := u) h.ending.informed hi hallow with hsame | ⟨hfamily, hunder, -⟩
    · exact hsame
    · exact absurd hunder (hquiet i th hi hfamily)
  refine ⟨h.ending.stepped code hi hapart hallow, ?_, fun j token hj hx haccepted => ?_⟩
  · obtain ⟨t₀, ht₀, hcall, hφ⟩ := h.ended
    by_cases hii : i₀ = i
    · subst hii
      rw [hi] at ht₀
      cases ht₀
      have hnext : th.call.next P th.phase l cfg.state w' = .ended := by
        rw [hcall, hφ]
        rfl
      exact ⟨⟨th.call, th.call.next P th.phase l cfg.state w', code⟩,
        by rw [System.stepped_thread, if_pos rfl]; rfl, hcall, hnext⟩
    · exact ⟨t₀, by rw [System.stepped_thread, if_neg hii, ht₀], hcall, hφ⟩
  · rw [hghost] at hx
    rcases haccepted.of_stepped hallow with ⟨-, hbefore⟩ | ⟨draws, φ', rfl, hcall, hφ', hstep⟩
    · exact h.rejected j token hj hx hbefore
    · refine h.rejected j token hj hx ⟨th, draws, hi, hcall, ?_⟩
      rcases hφ' with hφ' | hφ'
      · rcases hstep.inWindow hφ' with hφ | ⟨-, -, k, hget, hlive⟩
        · exact .inl hφ
        · have hkey := Rows.get_key hget
          exact absurd hlive (hrevoked k (Rows.get_mem hget) (hkey ▸ hx))
      · exact (hstep.redeemed hφ').symm

end

/-- In every interleaving of any calls of the service in which no refresh of the family is under way
when the logout reads the rows, and none passes its check before they are revoked: once the logout
has returned, no refresh that begins then accepts a token that was issued before the logout began or
obtained from such a token by refreshes. -/
theorem logout_ends_sessions (P : Platform) (u : Uuid) (i₀ : ℕ) (w : World)
    {cfg₁ cfg₂ : Config AuthCall AuthPhase World Label Exc Response (List (Varchar 64))}
    (h₁ : (sessionSystem P u i₀).Reach (LogoutApart P u i₀) (idle w []) cfg₁)
    (hlogout : loggedOut cfg₁ u i₀)
    (h₂ : (sessionSystem P u i₀).Reach (LogoutApart P u i₀) cfg₁ cfg₂)
    (j : ℕ) (hlater : cfg₁.threads j = none) (token : String)
    (htoken : P.sha256 token ∈ cfg₂.ghost) : returned cfg₂ token j = false := by
  have hprog := fun call : AuthCall => AuthCall.accepts (P := P) call
  have haccepts := h₁.accepts hprog (accepts_of_idle P w [])
  have hending : Ending P u i₀ cfg₁ := by
    refine h₁.monitored hprog (accepts_of_idle P w []) ?_ ?_ ?_ ?_
    · refine ⟨?_, List.forall_mem_nil _, ?_⟩
      · rintro i th token draws ⟨⟩
      · rintro i ⟨⟩
    · exact fun cfg i c hI _ => hI.started i c
    · exact fun cfg i th l w' code hI hi hmay hallow => hI.stepped code hi hmay hallow
    · exact fun cfg w' hI hw => hI.background hw.1
  obtain ⟨φ, a, ht₀⟩ := exists_of_loggedOut hlogout
  have hended : φ = .ended := by
    have hachieved := hending.achieved _ ht₀ rfl
    rcases haccepts i₀ _ ht₀ a rfl with hφ | hφ
    · exact hφ
    · rw [hφ] at hachieved
      exact hachieved.elim
  have hfinal : Ended P u i₀ (fun j => cfg₁.threads j = none) cfg₂ := by
    refine h₂.monitored hprog haccepts ⟨hending, ⟨_, ht₀, rfl, hended⟩, ?_⟩ ?_ ?_ ?_
    · rintro j token hj - ⟨th, draws, hth, -⟩
      rw [hj] at hth
      cases hth
    · exact fun cfg i c hI hi => hI.started c hi
    · exact fun cfg i th l w' code hI hi hmay hallow => hI.stepped code hi hmay hallow
    · exact fun cfg w' hI hw => ⟨hI.ending.background hw.1, hI.ended, hI.rejected⟩
  rw [Bool.eq_false_iff]
  intro hret
  obtain ⟨draws, φ', a', hth⟩ := exists_of_returned hret
  refine hfinal.rejected j token hlater htoken ⟨_, draws, hth, rfl, .inr ?_⟩
  have hknows := hfinal.ending.informed j _ token draws hth rfl
  rcases h₂.accepts hprog haccepts j _ hth a' rfl with hφ | hφ <;> rw [hφ] at hknows ⊢
  · trivial
  · exact hknows

/-! ### Ana's sessions -/

instance : DecidablePred AuthPhase.UnderWay :=
  fun φ => inferInstanceAs (Decidable (φ.InWindow ∨ φ = .issuing))

/-- No call below 2 is under way or has rows selected when a call that has read nothing makes its
step. -/
def settled (cfg : Config AuthCall AuthPhase World Label Exc Response (List (Varchar 64)))
    (i : ℕ) : Bool :=
  (cfg.threads i).all fun th => th.phase ≠ .start ||
    (List.range 2).all fun j => (cfg.threads j).all fun tj =>
      ¬ tj.phase.UnderWay && match tj.phase with | .selected _ => false | _ => true

lemma logoutApart_of_settled {P : Platform} {u : Uuid} {i₀ : ℕ}
    {cfg : Config AuthCall AuthPhase World Label Exc Response (List (Varchar 64))} {i : ℕ}
    {th : Thread AuthCall AuthPhase World Label Exc Response} {l : Label}
    (hidle : ∀ j, 2 ≤ j → cfg.threads j = none) (hi : cfg.threads i = some th)
    (hok : settled cfg i = true) : LogoutApart P u i₀ cfg i th l := by
  intro hφ _
  simp only [settled, hi, hφ, Option.all_some, ne_eq, not_true_eq_false, decide_false,
    Bool.false_or, List.all_eq_true, List.mem_range, Option.all_eq_true, Bool.and_eq_true,
    decide_eq_true_eq] at hok
  have hsettled : ∀ j tj, cfg.threads j = some tj →
      ¬ tj.phase.UnderWay ∧ ∀ ks, tj.phase ≠ .selected ks := by
    intro j tj hj
    by_cases hj2 : j < 2
    · obtain ⟨hunder, hselected⟩ := hok j hj2 tj hj
      refine ⟨hunder, fun ks hks => ?_⟩
      rw [hks] at hselected
      cases hselected
    · rw [hidle j (Nat.not_lt.mp hj2)] at hj
      cases hj
  exact ⟨fun _ j tj hj _ => (hsettled j tj hj).1, fun _ _ t₀ ks ht₀ => (hsettled i₀ t₀ ht₀).2 ks⟩

/-- Ana logs out, then somebody presents the token of her registration: it is not accepted. -/
theorem logout_ends_sessions_ana :
    ∃ cfg₁ cfg₂, (sessionSystem Platform.plain 1 0).Reach (LogoutApart Platform.plain 1 0)
        (idle anaRegistered []) cfg₁ ∧ loggedOut cfg₁ 1 0 = true ∧
      (sessionSystem Platform.plain 1 0).Reach (LogoutApart Platform.plain 1 0) cfg₁ cfg₂ ∧
      Platform.plain.sha256 anasToken ∈ cfg₂.ghost ∧ returned cfg₂ anasToken 1 = false := by
  have hrun : ((sessionSystem Platform.plain 1 0).follow settled
      (.start 0 (.logout 1) :: List.replicate 3 (.run 0)) (idle anaRegistered [])).any
        (fun cfg₁ => (loggedOut cfg₁ 1 0 && (cfg₁.threads 1).isNone) &&
          ((sessionSystem Platform.plain 1 0).follow settled
            (.start 1 (.refresh anasToken ⟨0, "", 200, 201, 202⟩) :: List.replicate 2 (.run 1))
            cfg₁).any fun cfg₂ => Platform.plain.sha256 anasToken ∈ cfg₂.ghost) = true := by
    decide +kernel
  obtain ⟨cfg₁, h₁, hidle, hcfg₁⟩ := System.exists_reach_of_follow_below (n := 2) (fun _ _ => rfl)
    (by simp) (fun _ _ _ _ => logoutApart_of_settled) hrun
  simp only [Bool.and_eq_true] at hcfg₁
  obtain ⟨⟨hlogout, hlater⟩, hrun₂⟩ := hcfg₁
  obtain ⟨cfg₂, h₂, -, htoken⟩ := System.exists_reach_of_follow_below hidle (by simp)
    (fun _ _ _ _ => logoutApart_of_settled) hrun₂
  exact ⟨cfg₁, cfg₂, h₁, hlogout, h₂, of_decide_eq_true htoken,
    logout_ends_sessions Platform.plain 1 0 anaRegistered h₁ hlogout h₂ 1
      (Option.isNone_iff_eq_none.mp hlater) anasToken (of_decide_eq_true htoken)⟩

/-- The token Ana gets for the one of her registration. -/
def anasNextToken : String :=
  Claims.encode (refreshClaims Platform.plain 1 "ana@example.com" 201 0)

/-- Ana's refresh has passed its checks when she logs out. It goes on to store its new token, which
a later refresh accepts. -/
theorem session_survives_logout :
    ∃ cfg₁ cfg₂, (sessionSystem Platform.plain 1 1).Reach System.Always (idle anaRegistered [])
        cfg₁ ∧ (∀ j, 2 ≤ j → cfg₁.threads j = none) ∧
      returned cfg₁ anasToken 0 = true ∧ loggedOut cfg₁ 1 1 = true ∧
      (sessionSystem Platform.plain 1 1).Reach System.Always cfg₁ cfg₂ ∧
      Platform.plain.sha256 anasNextToken ∈ cfg₂.ghost ∧ returned cfg₂ anasNextToken 2 = true := by
  have hrun : ((sessionSystem Platform.plain 1 1).follow (fun _ _ => true)
      (.start 0 (.refresh anasToken ⟨0, "", 200, 201, 202⟩) :: List.replicate 3 (.run 0) ++
        .start 1 (.logout 1) :: List.replicate 3 (.run 1) ++ List.replicate 8 (.run 0))
      (idle anaRegistered [])).any (fun cfg₁ =>
        (returned cfg₁ anasToken 0 && loggedOut cfg₁ 1 1) &&
          ((sessionSystem Platform.plain 1 1).follow (fun _ _ => true)
            (.start 2 (.refresh anasNextToken ⟨0, "", 300, 301, 302⟩) ::
              List.replicate 11 (.run 2)) cfg₁).any fun cfg₂ =>
                Platform.plain.sha256 anasNextToken ∈ cfg₂.ghost &&
                  returned cfg₂ anasNextToken 2) = true := by
    decide +kernel
  obtain ⟨cfg₁, h₁, hidle, hcfg₁⟩ := System.exists_reach_of_follow_below (n := 2) (fun _ _ => rfl)
    (fun i c h => by simp at h; omega) (fun _ _ _ _ _ _ _ => trivial) hrun
  simp only [Bool.and_eq_true] at hcfg₁
  obtain ⟨⟨hreturned, hlogout⟩, hrun₂⟩ := hcfg₁
  obtain ⟨cfg₂, h₂, hcfg₂⟩ := System.exists_reach_of_follow hrun₂
  simp only [Bool.and_eq_true, decide_eq_true_eq] at hcfg₂
  obtain ⟨htoken, hnext⟩ := hcfg₂
  exact ⟨cfg₁, cfg₂, h₁, hidle, hreturned, hlogout, h₂, htoken, hnext⟩

end LiveMenu
