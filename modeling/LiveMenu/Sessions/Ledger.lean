import LiveMenu.Lib.Ledger
import LiveMenu.Sequential.Menu

/-!
# The ledger of refresh tokens

Over a run of requests that execute one at a time, the callers see tokens being issued and redeemed
and users logging out. A refresh succeeds exactly for the tokens that stand in the ledger of these
events and have not expired.
-/

namespace LiveMenu

open AuthService (refresh issuedRow issued Accepted)

/-! ### What the callers see -/

/-- A pair of tokens that a call returned, for which user and when. -/
structure Ticket where
  userId : Uuid
  accessToken : String
  refreshToken : String
  issuedAt : Time
  deriving DecidableEq

namespace Ticket

variable (P : Platform) (t : Ticket)

/-- Neither the `exp` of the refresh token nor the stored `expires_at` has passed. -/
def InTime (now : Time) : Prop :=
  wholeSeconds now ≤ wholeSeconds (t.issuedAt + Time.days P.jwtRefreshTtlDays) ∧
    now ≤ t.issuedAt + Time.days P.jwtRefreshTtlDays

/-- The row stores the refresh token of the ticket. -/
def IsRow (k : RefreshToken) : Prop :=
  k.tokenHash = P.sha256 t.refreshToken ∧ k.userId = t.userId ∧
    k.expiresAt = t.issuedAt + Time.days P.jwtRefreshTtlDays

end Ticket

abbrev Entry := Ledger.Entry Ticket String Uuid

/-- The ticket was issued, its refresh token not redeemed, and its user did not log out since. -/
abbrev Standing (h : List Entry) (t : Ticket) : Prop :=
  Ledger.Standing Ticket.refreshToken Ticket.userId h t

/-- A ticket with the refresh token. -/
def ticketOf (h : List Entry) (token : String) : Option Ticket :=
  h.findSome? fun
    | .issued t => if t.refreshToken = token then some t else none
    | _         => none

/-- The tokens of a result are issued for the user. -/
def AuthResult.entries (r : AuthResult) (userId : Option Uuid) (now : Time) : List Entry :=
  userId.toList.map fun u => .issued ⟨u, r.accessToken, r.refreshToken, now⟩

/-- What the callers see of an event after the history `h`. The user of a refresh is the one its
token was issued for. -/
def Event.entries (P : Platform) (w : World) (h : List Entry) : Event → List Entry
  | .request (.register email password draws) =>
    match ((AuthService.register P email password draws).exec w).1 with
    | .ok r    => r.entries (r.user.map (·.id)) w.now
    | .error _ => []
  | .request (.login email password draws) =>
    match ((AuthService.login P email password draws).exec w).1 with
    | .ok r    => r.entries (r.user.map (·.id)) w.now
    | .error _ => []
  | .request (.refresh token draws) =>
    match ((refresh P token draws).exec w).1 with
    | .ok r    => .redeemed token :: r.entries ((ticketOf h token).map (·.userId)) w.now
    | .error _ => []
  | .request (.admin u .logout) =>
    match ((AuthService.logout u).exec w).1 with
    | .ok _    => [.withdrawn u]
    | .error _ => []
  | _ => []

/-- The history after a sequence of events. -/
def history (P : Platform) (w : World) (h : List Entry) : List Event → List Entry
  | []      => h
  | e :: es => history P (e.run P w) (h ++ e.entries P w h) es

/-- The random values an event draws for tokens. -/
def Event.draws : Event → Option Draws
  | .request (.register _ _ draws) => some draws
  | .request (.login _ _ draws)    => some draws
  | .request (.refresh _ draws)    => some draws
  | _                              => none

/-- The refresh tokens an event presents or creates. -/
def Event.tokens (P : Platform) (w : World) : Event → List String
  | .request (.register email password draws) =>
    match ((AuthService.register P email password draws).exec w).1 with
    | .ok r    => [r.refreshToken]
    | .error _ => []
  | .request (.login email password draws) =>
    match ((AuthService.login P email password draws).exec w).1 with
    | .ok r    => [r.refreshToken]
    | .error _ => []
  | .request (.refresh token draws) =>
    token :: ((P.jwtDecode token).map fun c =>
      P.jwtEncode (refreshClaims P c.sub c.email draws.refreshJti w.now)).toList
  | _ => []

lemma new_mem_tokens {P : Platform} {w : World} {token : String} {draws : Draws} {c : Claims}
    (hc : P.jwtDecode token = some c) :
    P.jwtEncode (refreshClaims P c.sub c.email draws.refreshJti w.now)
      ∈ (Event.request (.refresh token draws)).tokens P w := by
  simp [Event.tokens, hc]

/-! ### The token table over a run -/

/-- What an event adds to the ledger and what it makes of the token table. -/
inductive TokensEffect (P : Platform) (w : World) (h : List Entry) :
    Event → List Entry → List RefreshToken → Prop
  | same (e : Event) : TokensEffect P w h e [] w.db.refreshTokens
  | opened {e : Event} {user : User} {draws : Draws}
      (hdraws : e.draws = some draws)
      (htoken : (issued P (some user) user.id user.email.val draws w.now).refreshToken
        ∈ e.tokens P w) :
      TokensEffect P w h e
        ((issued P (some user) user.id user.email.val draws w.now).entries (some user.id) w.now)
        (w.db.refreshTokens ++ [issuedRow P user.id user.email.val draws w.now])
  | rotated {token : String} {draws : Draws} {c : Claims} {k : RefreshToken}
      (hacc : Accepted P w token c k) :
      TokensEffect P w h (.request (.refresh token draws))
        (.redeemed token :: (issued P none c.sub c.email draws w.now).entries
          ((ticketOf h token).map (·.userId)) w.now)
        (Rows.modify (·.id) k.id (fun _ => { k with revokedAt := some w.now }) w.db.refreshTokens
          ++ [issuedRow P c.sub c.email draws w.now])
  | unstored {token : String} {draws : Draws} {c : Claims} {k : RefreshToken} {db : Database}
      {e : DbError}
      (hacc : Accepted P w token c k)
      (hdb : db.toTables = { w.db.toTables with
        refreshTokens := Rows.modify (·.id) k.id (fun _ => { k with revokedAt := some w.now })
          w.db.refreshTokens })
      (hfail : (AuthService.issueTokens P none c.sub c.email draws).exec { w with db := db }
        = (.error (.db e), { w with db := db })) :
      TokensEffect P w h (.request (.refresh token draws)) [] db.refreshTokens
  | loggedOut {u : Uuid} :
      TokensEffect P w h (.request (.admin u .logout)) [.withdrawn u]
        (w.db.refreshTokens.map fun k =>
          if k.userId = u ∧ k.revokedAt.isNone then { k with revokedAt := some w.now } else k)

/-- Menu requests leave the token table alone. -/
lemma getMenu_refreshTokens (P : Platform) (w : World) (scan : MenuScan) (slug : String)
    (client : Client) (id : Uuid) :
    ((MenuRouter.getMenu P scan slug client id).exec w).2.db.refreshTokens
      = w.db.refreshTokens := by
  obtain ⟨events, ht⟩ := MenuRouter.getMenu_tables P w scan slug client id
  rw [ht]

/-- Of the owners' operations only `logout` touches the token table. -/
lemma AdminOp.refreshTokens (P : Platform) (w : World) (u : Uuid) (op : AdminOp)
    (hop : op ≠ .logout) : ((op.code P u).exec w).2.db.refreshTokens = w.db.refreshTokens := by
  rcases AdminOp.cases P u op w with ⟨e, hfail⟩ | ⟨r, w', hrun, heff⟩
  · rw [hfail]
  · rw [hrun]
    cases heff with
    | restaurantCreate _ _ _ hdb | restaurantUpdate _ _ _ hdb | categoryCreate _ _ hdb
    | categoryUpdate _ _ _ hdb | categoryReorder _ _ _ hdb | dishCreate _ _ hdb
    | dishUpdate _ _ _ hdb | dishDelete _ _ hdb | dishToggle _ _ hdb =>
      simp only [World.flushed, hdb]
    | restaurantDelete _ hdb | categoryDelete _ _ hdb =>
      simp only [World.flushed, hdb]
      rfl
    | logout => exact absurd rfl hop
    | restaurantGet | categoryList | dishList | dishGet | analyticsGet | analyticsExport => rfl

lemma Event.tokens_cases (P : Platform) (w : World) (h : List Entry) (e : Event) :
    TokensEffect P w h e (e.entries P w h) (e.run P w).db.refreshTokens := by
  cases e with
  | tick delay => exact .same _
  | request r =>
    cases r with
    | menu scan slug =>
      rw [run, Request.code, Prog.exec_map, MenuService.getMenuBySlug_db]
      exact .same _
    | viewMenu scan slug client id =>
      rw [run, Request.code, Prog.exec_map, getMenu_refreshTokens]
      exact .same _
    | admin u op =>
      by_cases hop : op = .logout
      · subst hop
        obtain ⟨db, hdb, hx⟩ := RefreshTokenRepository.revokeAllForUser_cases w u
        rw [run, Request.code, AdminOp.code, Prog.exec_map, entries, AuthService.logout, hx]
        simp only [hdb]
        exact .loggedOut
      · rw [run, Request.code, AdminOp.refreshTokens P w u op hop]
        have hnone : (request (.admin u op)).entries P w h = [] := by
          cases op <;> first | rfl | exact absurd rfl hop
        rw [hnone]
        exact .same _
    | register email password draws =>
      rw [run, Request.code, Prog.exec_map]
      rcases AuthService.register_cases P w email password draws with
        ⟨e, hx⟩ | ⟨user, db, ht, ⟨e, hx⟩ | ⟨db', ht', hx⟩⟩ <;> simp only [entries, hx]
      · exact .same _
      · simp only [ht]
        exact .same _
      · simp only [ht', ht]
        exact .opened rfl (by simp [tokens, hx])
    | login email password draws =>
      rw [run, Request.code, Prog.exec_map]
      rcases AuthService.login_cases P w email password draws with
        ⟨e, hx⟩ | ⟨user, db, -, -, ht, hx⟩ <;> simp only [entries, hx]
      · exact .same _
      · simp only [ht]
        exact .opened rfl (by simp [tokens, hx])
    | refresh token draws =>
      rw [run, Request.code, Prog.exec_map]
      rcases AuthService.refresh_cases P w token draws with
        ⟨-, status, detail, -, -, hx⟩ | ⟨c, k, db, hacc, ht, ⟨⟨e, hfail⟩, hx⟩ | ⟨db', ht', hx⟩⟩ <;>
        simp only [entries, hx]
      · exact .same _
      · exact .unstored hacc ht hfail
      · simp only [ht', ht]
        exact .rotated hacc

/-! ### The ledger and the table -/

/-- The token table `rows` and the ledger `h` agree: each row stores a ticket and each ticket has
its row, which is live exactly if the ticket stands. All refresh tokens are in `T`, and `drawn` are
the random values drawn so far. -/
structure Tracks (P : Platform) (T : Set String) (drawn : List Draws) (rows : List RefreshToken)
    (now : Time) (h : List Entry) : Prop where
  row : ∀ k ∈ rows, k.id ∈ drawn.map (·.tokenId) ∧ ∃ t, .issued t ∈ h ∧ t.IsRow P k
  ticket : ∀ t, .issued t ∈ h →
    ∃ k ∈ rows, t.IsRow P k ∧ (k.revokedAt = none ↔ Standing h t)
  created : ∀ t, .issued t ∈ h → t.refreshToken ∈ T ∧ t.issuedAt ≤ now ∧
    ∃ email, ∃ d ∈ drawn,
      t.refreshToken = P.jwtEncode (refreshClaims P t.userId email d.refreshJti t.issuedAt) ∧
      t.accessToken = P.jwtEncode (accessClaims P t.userId email d.accessJti t.issuedAt)
  redeemed : ∀ s, .redeemed s ∈ h → ∃ t, .issued t ∈ h ∧ t.refreshToken = s

section

variable {P : Platform} {T : Set String} {drawn : List Draws} {rows : List RefreshToken}
  {now : Time} {h : List Entry}

lemma Tracks.mono {drawn' : List Draws} {now' : Time} (ht : Tracks P T drawn rows now h)
    (hdrawn : drawn ⊆ drawn') (hnow : now ≤ now') : Tracks P T drawn' rows now' h where
  row k hk := ⟨List.map_subset _ hdrawn (ht.row k hk).1, (ht.row k hk).2⟩
  ticket := ht.ticket
  created t hi := by
    obtain ⟨hT, hle, email, d, hd, hrefresh, haccess⟩ := ht.created t hi
    exact ⟨hT, hle.trans hnow, email, d, hdrawn hd, hrefresh, haccess⟩
  redeemed := ht.redeemed

lemma wholeSeconds_mono {a b : Time} (hab : a ≤ b) : wholeSeconds a ≤ wholeSeconds b :=
  Int.ediv_le_ediv (by decide) hab

section

variable (hjwt : ∀ c, P.jwtDecode (P.jwtEncode c) = some c)

include hjwt

/-- A ticket is issued with a token of its own. -/
lemma Tracks.fresh_token (ht : Tracks P T drawn rows now h) {t : Ticket} (hi : .issued t ∈ h)
    {u : Uuid} {email : String} {draws : Draws} {at' : Time}
    (hjti : draws.refreshJti ∉ drawn.map (·.refreshJti)) :
    t.refreshToken ≠ P.jwtEncode (refreshClaims P u email draws.refreshJti at') := by
  obtain ⟨-, -, email', d, hd, htok, -⟩ := ht.created t hi
  intro heq
  have hclaims : refreshClaims P t.userId email' d.refreshJti t.issuedAt
      = refreshClaims P u email draws.refreshJti at' := by
    rw [← Option.some_inj, ← hjwt, ← htok, heq, hjwt]
  have hsame : d.refreshJti = draws.refreshJti := congrArg Claims.jti hclaims
  exact hjti (hsame ▸ List.mem_map_of_mem hd)

/-- Issuing a ticket and storing its row. -/
lemma Tracks.issue (ht : Tracks P T drawn rows now h) {user : Option User} {u : Uuid}
    {email : String} {draws : Draws} (hjti : draws.refreshJti ∉ drawn.map (·.refreshJti))
    (hT : (issued P user u email draws now).refreshToken ∈ T) :
    Tracks P T (drawn ++ [draws]) (rows ++ [issuedRow P u email draws now]) now
      (h ++ (issued P user u email draws now).entries (some u) now) := by
  have hfresh : ∀ t, .issued t ∈ h →
      t.refreshToken ≠ (issued P user u email draws now).refreshToken :=
    fun t hi => ht.fresh_token hjwt hi hjti
  have hunused : .redeemed (issued P user u email draws now).refreshToken ∉ h := by
    intro hred
    obtain ⟨t, hi, heq⟩ := ht.redeemed _ hred
    exact hfresh t hi heq
  have hmem : ∀ {e : Entry}, e ∈ h ++ (issued P user u email draws now).entries (some u) now ↔
      e ∈ h ∨ e = .issued ⟨u, (issued P user u email draws now).accessToken,
        (issued P user u email draws now).refreshToken, now⟩ := by
    simp [AuthResult.entries]
  refine ⟨?_, ?_, ?_, ?_⟩
  · intro k hk
    rcases List.mem_append.mp hk with hk | hk
    · obtain ⟨hid, t, hi, hrow⟩ := ht.row k hk
      exact ⟨List.map_subset _ (List.subset_append_left ..) hid, t, hmem.mpr (.inl hi), hrow⟩
    · obtain rfl := List.mem_singleton.mp hk
      exact ⟨by simp [issuedRow], _, hmem.mpr (.inr rfl), rfl, rfl, rfl⟩
  · intro t hi
    rcases hmem.mp hi with hi | heq
    · obtain ⟨k, hk, hrow, hiff⟩ := ht.ticket t hi
      refine ⟨k, List.mem_append_left _ hk, hrow, hiff.trans (Iff.symm ?_)⟩
      exact Ledger.standing_append_issued fun heq => hfresh t hi (heq ▸ rfl)
    · obtain rfl := Ledger.Entry.issued.inj heq
      refine ⟨_, List.mem_append_right _ (.head _), ⟨rfl, rfl, rfl⟩, iff_of_true rfl ?_⟩
      exact Ledger.standing_issued hunused
  · intro t hi
    rcases hmem.mp hi with hi | heq
    · exact (ht.mono (List.subset_append_left ..) le_rfl).created t hi
    · obtain rfl := Ledger.Entry.issued.inj heq
      exact ⟨hT, le_rfl, email, draws, by simp, rfl, rfl⟩
  · intro s hs
    rcases hmem.mp hs with hs | heq
    · obtain ⟨t, hi, heq⟩ := ht.redeemed s hs
      exact ⟨t, hmem.mpr (.inl hi), heq⟩
    · cases heq

end

/-- The tickets of a user are withdrawn and their rows revoked. -/
lemma Tracks.withdraw (ht : Tracks P T drawn rows now h) (u : Uuid) (at' : Time) :
    Tracks P T drawn (rows.map fun k =>
      if k.userId = u ∧ k.revokedAt.isNone then { k with revokedAt := some at' } else k) now
      (h ++ [.withdrawn u]) := by
  have hmem : ∀ {t : Ticket}, .issued t ∈ h ++ [.withdrawn u] ↔ .issued t ∈ h := by simp
  have hrow : ∀ (t : Ticket) (k : RefreshToken), t.IsRow P
      (if k.userId = u ∧ k.revokedAt.isNone then { k with revokedAt := some at' } else k) ↔
        t.IsRow P k := by
    intro t k
    split_ifs <;> rfl
  refine ⟨?_, ?_, ?_, ?_⟩
  · intro k hk
    obtain ⟨k', hk', rfl⟩ := List.mem_map.mp hk
    obtain ⟨hid, t, hi, h'⟩ := ht.row k' hk'
    refine ⟨?_, t, hmem.mpr hi, (hrow t k').mpr h'⟩
    split_ifs <;> exact hid
  · intro t hi
    obtain ⟨k, hk, h', hiff⟩ := ht.ticket t (hmem.mp hi)
    refine ⟨_, List.mem_map_of_mem hk, (hrow t k).mpr h', ?_⟩
    refine Iff.trans ?_ (Iff.trans (and_congr_right' hiff) Ledger.standing_append_withdrawn.symm)
    rw [← h'.2.1]
    by_cases hu : k.userId = u
    · cases hr : k.revokedAt <;> simp [hu, hr]
    · simp [hu, Ne.symm hu]
  · exact fun t hi => ht.created t (hmem.mp hi)
  · intro s hs
    obtain ⟨t, hi, heq⟩ := ht.redeemed s (by simpa using hs)
    exact ⟨t, hmem.mpr hi, heq⟩

section

variable (hsha : Set.InjOn P.sha256 T)

include hsha

/-- The ticket of a row is the one whose refresh token has the hash. -/
lemma Tracks.token_eq (ht : Tracks P T drawn rows now h) {t : Ticket} {k : RefreshToken}
    {token : String} (hi : .issued t ∈ h) (hrow : t.IsRow P k) (hT : token ∈ T)
    (hk : k.tokenHash = P.sha256 token) : t.refreshToken = token :=
  hsha (ht.created t hi).1 hT (hrow.1.symm.trans hk)

/-- A refresh token is redeemed and its row revoked. -/
lemma Tracks.redeem (ht : Tracks P T drawn rows now h) (hhash : (rows.map (·.tokenHash)).Nodup)
    (hid : (rows.map (·.id)).Nodup) {k : RefreshToken} {token : String} (hk : k ∈ rows)
    (hT : token ∈ T) (hkt : k.tokenHash = P.sha256 token) (at' : Time) :
    Tracks P T drawn (Rows.modify (·.id) k.id (fun _ => { k with revokedAt := some at' }) rows) now
      (h ++ [.redeemed token]) := by
  have hmem : ∀ {t : Ticket}, .issued t ∈ h ++ [.redeemed token] ↔ .issued t ∈ h := by simp
  refine ⟨?_, ?_, ?_, ?_⟩
  · intro k' hk'
    rcases Rows.mem_modify.mp hk' with ⟨hk', -⟩ | ⟨k'', hk'', hkk, rfl⟩
    · obtain ⟨hid, t, hi, hrow⟩ := ht.row k' hk'
      exact ⟨hid, t, hmem.mpr hi, hrow⟩
    · obtain ⟨hid, t, hi, hrow⟩ := ht.row k hk
      exact ⟨hid, t, hmem.mpr hi, hrow⟩
  · intro t hi
    obtain ⟨k', hk', hrow, hiff⟩ := ht.ticket t (hmem.mp hi)
    rw [Standing, Ledger.standing_append_redeemed]
    by_cases hkk : k'.id = k.id
    · obtain rfl := Rows.eq_of_key_eq hid hk' hk hkk
      refine ⟨_, Rows.mem_modify.mpr (.inr ⟨k', hk', rfl, rfl⟩), hrow, iff_of_false (by simp) ?_⟩
      exact fun hne => hne.1 (ht.token_eq hsha (hmem.mp hi) hrow hT hkt).symm
    · refine ⟨k', Rows.mem_modify.mpr (.inl ⟨hk', hkk⟩), hrow, hiff.trans ?_⟩
      refine (and_iff_right fun heq => hkk ?_).symm
      -- a ticket with this token would have the row that is revoked
      rw [Rows.eq_of_key_eq hhash hk' hk (hrow.1.trans (heq ▸ hkt.symm))]
  · exact fun t hi => ht.created t (hmem.mp hi)
  · intro s hs
    rcases List.mem_append.mp hs with hs | hs
    · obtain ⟨t, hi, heq⟩ := ht.redeemed s hs
      exact ⟨t, hmem.mpr hi, heq⟩
    · obtain rfl := Ledger.Entry.redeemed.inj (List.mem_singleton.mp hs)
      obtain ⟨-, t, hi, hrow⟩ := ht.row k hk
      exact ⟨t, hmem.mpr hi, ht.token_eq hsha hi hrow hT hkt⟩

end

/-! ### One request -/

variable {w : World}

/-- A token passes both checks exactly if it is the refresh token of a standing ticket that has
not expired. -/
lemma Tracks.accepted_iff (hjwt : ∀ c, P.jwtDecode (P.jwtEncode c) = some c)
    (hsha : Set.InjOn P.sha256 T) (ht : Tracks P T drawn w.db.refreshTokens w.now h)
    {token : String} (hT : token ∈ T) :
    (∃ c k, Accepted P w token c k) ↔
      ∃ t, Standing h t ∧ t.refreshToken = token ∧ t.InTime P w.now := by
  constructor
  · rintro ⟨c, k, -, -, -, hget, hrev, hexp⟩
    have hk := Rows.get_mem hget
    have hkey := Rows.get_key hget
    obtain ⟨-, t, hi, hrow⟩ := ht.row k hk
    obtain ⟨k', hk', hrow', hiff⟩ := ht.ticket t hi
    obtain rfl := Rows.eq_of_key_eq w.db.valid.refreshTokenHash hk' hk (hrow'.1.trans hrow.1.symm)
    rw [hrow.2.2] at hexp
    exact ⟨t, hiff.mp hrev, ht.token_eq hsha hi hrow hT hkey, wholeSeconds_mono hexp, hexp⟩
  · rintro ⟨t, hstand, rfl, hin⟩
    obtain ⟨k, hk, hrow, hiff⟩ := ht.ticket t hstand.issued
    obtain ⟨-, hle, email, d, -, htok, -⟩ := ht.created t hstand.issued
    refine ⟨_, k, htok ▸ hjwt _, ⟨wholeSeconds_mono hle, hin.1⟩, rfl, ?_, hiff.mpr hstand, ?_⟩
    · rw [← hrow.1]
      exact Rows.get_of_mem w.db.valid.refreshTokenHash hk
    · rw [hrow.2.2]
      exact hin.2

/-- The ticket found for a token that decodes was issued for the user in the payload. -/
lemma Tracks.ticketOf_user (hjwt : ∀ c, P.jwtDecode (P.jwtEncode c) = some c)
    (ht : Tracks P T drawn rows now h) {token : String} {c : Claims} {t : Ticket}
    (hi : .issued t ∈ h) (htoken : t.refreshToken = token) (hc : P.jwtDecode token = some c) :
    (ticketOf h token).map (·.userId) = some c.sub := by
  have huser : ∀ t', .issued t' ∈ h → t'.refreshToken = token → t'.userId = c.sub := by
    intro t' hi' htoken'
    obtain ⟨-, -, email, d, -, htok, -⟩ := ht.created t' hi'
    rw [← htoken', htok, hjwt] at hc
    rw [← Option.some.inj hc]
    rfl
  cases hfound : ticketOf h token with
  | none =>
    have := List.findSome?_eq_none_iff.mp hfound _ hi
    simp [htoken] at this
  | some t' =>
    obtain ⟨e, he, hsome⟩ := List.exists_of_findSome?_eq_some hfound
    cases e with
    | issued t'' =>
      simp only [Option.ite_none_right_eq_some, Option.some.injEq] at hsome
      obtain ⟨htoken', rfl⟩ := hsome
      exact congrArg some (huser t'' he htoken')
    | redeemed _ => cases hsome
    | withdrawn _ => cases hsome

/-- The new token of an accepted one is not kept from being stored. -/
lemma Tracks.issueTokens_ok (hjwt : ∀ c, P.jwtDecode (P.jwtEncode c) = some c)
    (hsha : Set.InjOn P.sha256 T) (ht : Tracks P T drawn w.db.refreshTokens w.now h)
    {token : String} {c : Claims} {k : RefreshToken} (hacc : Accepted P w token c k)
    {draws : Draws} (hjti : draws.refreshJti ∉ drawn.map (·.refreshJti))
    (hid : draws.tokenId ∉ drawn.map (·.tokenId)) (hT : token ∈ T)
    (hnew : P.jwtEncode (refreshClaims P c.sub c.email draws.refreshJti w.now) ∈ T) {db : Database}
    (hdb : db.toTables = { w.db.toTables with
      refreshTokens := Rows.modify (·.id) k.id (fun _ => { k with revokedAt := some w.now })
        w.db.refreshTokens }) :
    ∃ r w', (AuthService.issueTokens P none c.sub c.email draws).exec { w with db := db }
      = (.ok r, w') := by
  obtain ⟨hc, -, -, hget, -⟩ := hacc
  have hk := Rows.get_mem hget
  have hkey := Rows.get_key hget
  have hredeem := ht.redeem hsha w.db.valid.refreshTokenHash w.db.valid.refreshTokenId hk hT hkey
    w.now
  obtain ⟨-, t, hi, hrow⟩ := ht.row k hk
  apply AuthService.issueTokens_of_fresh
  · rw [hdb]
    intro hmem
    obtain ⟨k', hk', hkid⟩ := List.mem_map.mp hmem
    exact hid (hkid ▸ (hredeem.row k' hk').1)
  · rw [hdb]
    intro hmem
    obtain ⟨k', hk', hhash⟩ := List.mem_map.mp hmem
    obtain ⟨-, t', hi', hrow'⟩ := hredeem.row k' hk'
    exact hredeem.fresh_token hjwt hi' hjti (hredeem.token_eq hsha hi' hrow' hnew hhash)
  · have huser := w.db.valid.refreshTokenUserFk k hk
    obtain ⟨-, -, email, d, -, htok, -⟩ := ht.created t hi
    rw [← ht.token_eq hsha hi hrow hT hkey, htok, hjwt] at hc
    rw [hdb, ← Option.some.inj hc]
    exact hrow.2.1 ▸ huser

/-- Without failures of the database a refresh is rejected or it returns the new pair. -/
lemma Tracks.refresh_cases (hjwt : ∀ c, P.jwtDecode (P.jwtEncode c) = some c)
    (hsha : Set.InjOn P.sha256 T) (ht : Tracks P T drawn w.db.refreshTokens w.now h)
    {token : String} {draws : Draws} (hjti : draws.refreshJti ∉ drawn.map (·.refreshJti))
    (hid : draws.tokenId ∉ drawn.map (·.tokenId))
    (hT : ∀ s ∈ (Event.request (.refresh token draws)).tokens P w, s ∈ T) :
    ((¬ ∃ c k, Accepted P w token c k) ∧ Rejected (refresh P token draws) w) ∨
      ∃ c k w', Accepted P w token c k ∧
        (refresh P token draws).exec w = (.ok (issued P none c.sub c.email draws w.now), w') := by
  rcases AuthService.refresh_cases P w token draws with
    h' | ⟨c, k, db, hacc, hdb, ⟨⟨e, hfail⟩, -⟩ | ⟨db', -, hx⟩⟩
  · exact .inl h'
  · obtain ⟨r, w', hok⟩ := ht.issueTokens_ok hjwt hsha hacc hjti hid (hT token (.head _))
      (hT _ (new_mem_tokens hacc.1)) hdb
    rw [hok] at hfail
    cases hfail
  · exact .inr ⟨c, k, _, hacc, hx⟩

/-- The clock never goes back. -/
lemma Event.now_le (e : Event) : w.now ≤ (e.run P w).now := by
  cases e with
  | request r => exact (Request.now P w r).ge
  | tick delay => exact le_add_of_nonneg_right (Int.natCast_nonneg delay)

/-- Every event keeps the table and the ledger in agreement. -/
lemma Tracks.event (hjwt : ∀ c, P.jwtDecode (P.jwtEncode c) = some c)
    (hsha : Set.InjOn P.sha256 T) (ht : Tracks P T drawn w.db.refreshTokens w.now h) {e : Event}
    (hjti : ∀ d ∈ e.draws, d.refreshJti ∉ drawn.map (·.refreshJti))
    (hid : ∀ d ∈ e.draws, d.tokenId ∉ drawn.map (·.tokenId))
    (hT : ∀ s ∈ e.tokens P w, s ∈ T) :
    Tracks P T (drawn ++ e.draws.toList) (e.run P w).db.refreshTokens (e.run P w).now
      (h ++ e.entries P w h) := by
  refine Tracks.mono ?_ (List.Subset.refl _) (Event.now_le e)
  have hcases := Event.tokens_cases P w h e
  revert hcases
  generalize e.entries P w h = entries
  generalize (e.run P w).db.refreshTokens = rows
  intro hcases
  cases hcases with
  | same =>
    rw [List.append_nil]
    exact ht.mono (List.subset_append_left ..) le_rfl
  | opened hdraws htoken =>
    rw [hdraws, Option.toList_some]
    exact ht.issue hjwt (hjti _ hdraws) (hT _ htoken)
  | @rotated token draws c k hacc =>
    have htoken : token ∈ T := hT token (.head _)
    have hget := hacc.2.2.2.1
    have hkey := Rows.get_key hget
    have hredeem := ht.redeem hsha w.db.valid.refreshTokenHash w.db.valid.refreshTokenId
      (Rows.get_mem hget) htoken hkey w.now
    obtain ⟨-, t, hi, hrow⟩ := ht.row k (Rows.get_mem hget)
    rw [ht.ticketOf_user hjwt hi (ht.token_eq hsha hi hrow htoken hkey) hacc.1]
    rw [List.append_cons h]
    exact hredeem.issue hjwt (hjti _ rfl) (hT _ (new_mem_tokens hacc.1))
  | unstored hacc hdb hfail =>
    obtain ⟨r, w', hok⟩ := ht.issueTokens_ok hjwt hsha hacc (hjti _ rfl) (hid _ rfl)
      (hT _ (.head _)) (hT _ (new_mem_tokens hacc.1)) hdb
    rw [hok] at hfail
    cases hfail
  | @loggedOut u => exact (ht.withdraw u w.now).mono (List.subset_append_left ..) le_rfl

/-- They agree after every run. -/
lemma Tracks.run (hjwt : ∀ c, P.jwtDecode (P.jwtEncode c) = some c)
    (hsha : Set.InjOn P.sha256 T) {events : List Event}
    (ht : Tracks P T drawn w.db.refreshTokens w.now h)
    (hjti : ((drawn ++ events.filterMap Event.draws).map (·.refreshJti)).Nodup)
    (hid : ((drawn ++ events.filterMap Event.draws).map (·.tokenId)).Nodup)
    (hT : EveryStep P (fun w e => ∀ s ∈ e.tokens P w, s ∈ T) w events) :
    Tracks P T (drawn ++ events.filterMap Event.draws) (runEvents P w events).db.refreshTokens
      (runEvents P w events).now (history P w h events) := by
  induction events generalizing w h drawn with
  | nil =>
    rw [List.filterMap_nil, List.append_nil]
    exact ht
  | cons e es ih =>
    have hdraws : drawn ++ (e :: es).filterMap Event.draws
        = (drawn ++ e.draws.toList) ++ es.filterMap Event.draws := by
      rw [List.append_assoc]
      cases hd : e.draws <;> simp [hd]
    have hnew : ∀ {β : Type} (f : Draws → β),
        ((drawn ++ (e :: es).filterMap Event.draws).map f).Nodup →
          ∀ d ∈ e.draws, f d ∉ drawn.map f := by
      intro β f hnd d hd hmem
      rw [List.map_append, List.nodup_append] at hnd
      refine hnd.2.2 _ hmem _ (List.mem_map_of_mem ?_) rfl
      rw [List.filterMap_cons, Option.mem_def.mp hd]
      exact .head _
    rw [hdraws]
    exact ih (ht.event hjwt hsha (hnew _ hjti) (hnew _ hid) hT.1) (hdraws ▸ hjti) (hdraws ▸ hid)
      hT.2

end

/-- An access token does not pass the check of a refresh token. -/
lemma refresh_access_token {P : Platform} (hjwt : ∀ c, P.jwtDecode (P.jwtEncode c) = some c)
    (w : World) {token : String} {c : Claims} (htoken : token = P.jwtEncode c)
    (htype : c.type = "access") (draws : Draws) : Rejected (refresh P token draws) w := by
  rcases AuthService.refresh_cases P w token draws with ⟨-, h⟩ | ⟨c', k, db, ⟨hc', -, htype', -⟩, -⟩
  · exact h
  · rw [htoken, hjwt] at hc'
    cases hc'
    rw [htype] at htype'
    exact absurd htype' (by decide)

/-- A refresh token does not pass the check of an access token. -/
lemma getCurrentUserId_refresh_token {P : Platform}
    (hjwt : ∀ c, P.jwtDecode (P.jwtEncode c) = some c) (w : World) {token : String} {c : Claims}
    (htoken : token = P.jwtEncode c) (htype : c.type = "refresh") :
    (getCurrentUserId P token).exec w = (.error (.http 401 "token_expired"), w) := by
  rcases exec_verifyAccessToken P w token with ⟨c', hc', -, htype', -⟩ | ⟨-, h⟩
  · rw [htoken, hjwt] at hc'
    cases hc'
    rw [htype] at htype'
    exact absurd htype' (by decide)
  · rw [getCurrentUserId, Prog.exec_handle, Prog.exec_bind_error h]
    rfl

/-- Over every run from an empty token table, with a library that decodes what it encoded, new
identifiers for each call, and SHA-256 injective on the refresh tokens `T` that occur: a refresh
succeeds exactly for the refresh token of a standing ticket that has not expired. Then both new
tokens are the user's, else the token table stays as it is. Access tokens are never accepted by
`refresh`, nor refresh tokens by `get_current_user_id`. -/
theorem refresh_succeeds_iff_standing (P : Platform) (T : Set String) (w₀ : World)
    (events : List Event) (token : String) (draws : Draws)
    (hempty : w₀.db.refreshTokens = [])
    (hjwt : ∀ c, P.jwtDecode (P.jwtEncode c) = some c)
    (hsha : Set.InjOn P.sha256 T)
    (hT : EveryStep P (fun w e => ∀ s ∈ e.tokens P w, s ∈ T) w₀
      (events ++ [.request (.refresh token draws)]))
    (hjti : ((events.filterMap Event.draws ++ [draws]).map (·.refreshJti)).Nodup)
    (hid : ((events.filterMap Event.draws ++ [draws]).map (·.tokenId)).Nodup) :
    let w := runEvents P w₀ events
    let h := history P w₀ [] events
    let out := (refresh P token draws).exec w
    ((∃ r, out.1 = .ok r) ↔
        ∃ t, Standing h t ∧ t.refreshToken = token ∧ t.InTime P w.now) ∧
      (∀ r t, out.1 = .ok r → Standing h t → t.refreshToken = token →
        (P.jwtDecode r.accessToken).map (·.sub) = some t.userId ∧
          (P.jwtDecode r.refreshToken).map (·.sub) = some t.userId) ∧
      ((∀ r, out.1 ≠ .ok r) → out.2.db.refreshTokens = w.db.refreshTokens) ∧
      ∀ t, .issued t ∈ h →
        (∀ draws', Rejected (refresh P t.accessToken draws') w) ∧
          (getCurrentUserId P t.refreshToken).exec w
            = (.error (.http 401 "token_expired"), w) := by
  intro w h out
  obtain ⟨hT, hlast, -⟩ := everyStep_append.mp hT
  have htoken : token ∈ T := hlast token (.head _)
  rw [List.map_append] at hjti hid
  have hstart : Tracks P T [] w₀.db.refreshTokens w₀.now [] := by
    rw [hempty]
    exact ⟨by simp, by simp, by simp, by simp⟩
  have htracks : Tracks P T (events.filterMap Event.draws) w.db.refreshTokens w.now h :=
    hstart.run hjwt hsha hjti.of_append_left hid.of_append_left hT
  have hnew : ∀ {β : Type} (f : Draws → β), ((events.filterMap Event.draws).map f ++
      [draws].map f).Nodup → f draws ∉ (events.filterMap Event.draws).map f := by
    intro β f hnd hmem
    exact (List.nodup_append.mp hnd).2.2 _ hmem _ (.head _) rfl
  have hcases := htracks.refresh_cases hjwt hsha (hnew _ hjti) (hnew _ hid) hlast
  refine ⟨?_, ?_, ?_, ?_⟩
  · rw [← htracks.accepted_iff hjwt hsha htoken]
    rcases hcases with ⟨hnone, status, detail, -, -, hx⟩ | ⟨c, k, w', hacc, hx⟩
    · refine iff_of_false ?_ hnone
      rintro ⟨r, hr⟩
      cases (congrArg Prod.fst hx).symm.trans hr
    · exact iff_of_true ⟨_, congrArg Prod.fst hx⟩ ⟨c, k, hacc⟩
  · intro r t hr hstand htok
    rcases hcases with ⟨-, status, detail, -, -, hx⟩ | ⟨c, k, w', ⟨hc, -⟩, hx⟩
    · cases (congrArg Prod.fst hx).symm.trans hr
    · cases (congrArg Prod.fst hx).symm.trans hr
      have huser : c.sub = t.userId := by
        obtain ⟨-, -, email, d, -, htok', -⟩ := htracks.created t hstand.issued
        rw [← htok, htok', hjwt] at hc
        rw [← Option.some.inj hc]
        rfl
      rw [← huser, issued, hjwt, hjwt]
      exact ⟨rfl, rfl⟩
  · intro hfail
    rcases hcases with ⟨-, status, detail, -, -, hx⟩ | ⟨c, k, w', -, hx⟩
    · exact congrArg (·.2.db.refreshTokens) hx
    · exact absurd (congrArg Prod.fst hx) (hfail _)
  · intro t hi
    obtain ⟨-, -, email, d, -, hrefresh, haccess⟩ := htracks.created t hi
    exact ⟨refresh_access_token hjwt w haccess rfl,
      getCurrentUserId_refresh_token hjwt w hrefresh rfl⟩

/-- The refresh tokens of a registration and of a refresh by Ana. -/
def anasTokens : List String := [101, 201].map fun jti =>
  Claims.encode (refreshClaims Platform.plain 1 "ana@example.com" jti 0)

/-- Ana refreshes the token of her registration. -/
theorem refresh_succeeds_ana :
    ∃ r, ((refresh Platform.plain
      (Claims.encode (refreshClaims Platform.plain 1 "ana@example.com" 101 0))
      ⟨0, "", 200, 201, 202⟩).exec
        (runEvents Platform.plain ⟨Database.empty, [], 0⟩ [registerAna])).1 = .ok r := by
  have hsha : ∀ s ∈ anasTokens, ∀ s' ∈ anasTokens,
      Platform.plain.sha256 s = Platform.plain.sha256 s' → s = s' := by decide +kernel
  have hregister : ∀ s ∈ registerAna.tokens Platform.plain ⟨Database.empty, [], 0⟩,
      s ∈ anasTokens := by decide +kernel
  have hrefresh : ∀ s ∈ (Event.request (.refresh
      (Claims.encode (refreshClaims Platform.plain 1 "ana@example.com" 101 0))
        ⟨0, "", 200, 201, 202⟩)).tokens Platform.plain
          (registerAna.run Platform.plain ⟨Database.empty, [], 0⟩), s ∈ anasTokens := by
    decide +kernel
  let t : Ticket := ⟨1, Claims.encode (accessClaims Platform.plain 1 "ana@example.com" 100 0),
    Claims.encode (refreshClaims Platform.plain 1 "ana@example.com" 101 0), 0⟩
  have hissued : history Platform.plain ⟨Database.empty, [], 0⟩ [] [registerAna] = [.issued t] := by
    decide +kernel
  have hstand : Standing (history Platform.plain ⟨Database.empty, [], 0⟩ [] [registerAna]) t := by
    rw [hissued]
    exact Ledger.standing_issued List.not_mem_nil
  have hin : t.InTime Platform.plain
      (runEvents Platform.plain ⟨Database.empty, [], 0⟩ [registerAna]).now := by
    rw [show (runEvents Platform.plain ⟨Database.empty, [], 0⟩ [registerAna]).now = 0 from
      Request.now ..]
    exact ⟨by decide, by decide⟩
  exact (refresh_succeeds_iff_standing Platform.plain {s | s ∈ anasTokens}
    ⟨Database.empty, [], 0⟩ [registerAna] t.refreshToken ⟨0, "", 200, 201, 202⟩ rfl
    Platform.plain_jwtDecode (fun s hs s' hs' => hsha s hs s' hs')
    ⟨hregister, hrefresh, trivial⟩ (by decide) (by decide)).1.mpr ⟨t, hstand, rfl, hin⟩

end LiveMenu
