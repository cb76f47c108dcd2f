import LiveMenu.Model.RateLimit

/-!
# The request quota

The limiter is configured and its exception has a handler, but no route is decorated and the
middleware is not installed: no request is ever counted. With the middleware the quota of each route
would be kept.
-/

namespace LiveMenu

namespace App

variable {A : App} (settings : LimiterSettings)

/-- A request of the key for one of the routes of interest, within the minute that begins at
`start`. -/
def Counts (A : App) (scope : { route // route ∈ A.routes } → Bool) (key : String) (start : Time)
    (r : TimedRequest A) : Bool :=
  A.key settings r = key ∧ start ≤ r.time ∧ r.time < start + Time.minutes 1 ∧ scope r.route

/-- Within every minute, at most as many requests of a key as the quota allows are answered with
something other than 429. -/
def QuotaKept (A : App) (scope : { route // route ∈ A.routes } → Bool)
    (trace : List (TimedRequest A)) : Prop :=
  ∀ key start, ((A.answers settings (fun _ => none) trace).filter fun a =>
    Counts settings A scope key start a.1 ∧ a.2 ≠ 429).length ≤ settings.rateLimitPerMinute

end App

lemma EndpointResult.answer_ne_429 (e : EndpointResult) : e.answer ≠ 429 := by
  cases e with
  | status code listed =>
    rintro rfl
    simp [endpointStatuses] at listed
  | invalid => decide
  | raised => decide

namespace App

section Installed

variable {A : App} (settings : LimiterSettings)

/-- What the limiter counts of a series of requests. -/
def hits (trace : List (TimedRequest A)) : List ((String × { route // route ∈ A.routes }) × ℤ) :=
  trace.map fun r => ((A.key settings r, r.route), r.time)

lemma length_answered_le_admitted (h : ∀ route ∈ A.routes, A.limits route = true)
    (k : String × { route // route ∈ A.routes }) (start : ℤ) (trace : List (TimedRequest A))
    (ws : FixedWindow.Windows (String × { route // route ∈ A.routes })) :
    (((A.answers settings ws trace).zip
        (FixedWindow.run (Time.minutes 1) ws (hits settings trace))).filter fun a =>
      a.2.1 = k ∧ a.2.2.start = start ∧ a.1.2 ≠ 429).length
        ≤ (FixedWindow.admitted settings.rateLimitPerMinute k start
            (FixedWindow.run (Time.minutes 1) ws (hits settings trace))).length := by
  induction trace generalizing ws with
  | nil => exact Nat.le_refl _
  | cons r trace ih =>
    have hlimited : A.limits r.route = true := h _ r.route.property
    have hrest := ih (Function.update ws (A.key settings r, r.route)
      (some (FixedWindow.hit (Time.minutes 1) (ws (A.key settings r, r.route)) r.time)))
    simp only [hits, List.map_cons, answers, hlimited, if_true, FixedWindow.run,
      FixedWindow.admitted, List.zip_cons_cons, List.filter_cons] at hrest ⊢
    cases hadmit : (FixedWindow.hit (Time.minutes 1) (ws (A.key settings r, r.route)) r.time).admits
        settings.rateLimitPerMinute with
    | true =>
      simp only [if_true, ne_eq, r.result.answer_ne_429, not_false_eq_true, and_true]
      split_ifs
      · exact Nat.succ_le_succ hrest
      · exact hrest
    | false => simpa using hrest

/-- If every route is limited, no window of the limiter answers more requests of a key for a route
than the quota allows. -/
theorem quota_of_limits (h : ∀ route ∈ A.routes, A.limits route = true)
    (k : String × { route // route ∈ A.routes }) (start : ℤ) (trace : List (TimedRequest A)) :
    (((A.answers settings (fun _ => none) trace).zip
        (FixedWindow.run (Time.minutes 1) (fun _ => none) (hits settings trace))).filter fun a =>
      a.2.1 = k ∧ a.2.2.start = start ∧ a.1.2 ≠ 429).length ≤ settings.rateLimitPerMinute :=
  (length_answered_le_admitted settings h k start trace _).trans
    (FixedWindow.length_admitted_le (by decide) _)

end Installed

end App

/-! ### The application as it is -/

/-- The limits apply to no route. -/
lemma app_limits : ∀ route ∈ app.routes, app.limits route = false := by decide

/-- Every request is answered as its endpoint ends. -/
lemma answers_app (settings : LimiterSettings) (trace : List (TimedRequest app))
    (ws : FixedWindow.Windows (String × { route // route ∈ app.routes })) :
    app.answers settings ws trace = trace.map fun r => (r, r.result.answer) := by
  induction trace generalizing ws with
  | nil => rfl
  | cons r trace ih =>
    have hlimits : app.limits r.route = false := app_limits _ r.route.property
    simp only [App.answers, hlimits, Bool.false_eq_true, if_false, List.map_cons, ih]

/-- A login with a wrong password. -/
def failedLogin : TimedRequest app where
  time := 0
  request := ⟨[], some "203.0.113.7"⟩
  route := ⟨⟨"POST", "/api/v1/auth/login", false⟩, by decide⟩
  result := .status 401 (by decide)

end LiveMenu
