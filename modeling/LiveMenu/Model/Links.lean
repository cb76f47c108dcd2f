import LiveMenu.Model.Requests

/-!
# Links to the public menu

The URL a QR code encodes, and how a path reaches a route: the client removes the dot segments,
the server matches the segments that are left. A slug has no character that is escaped in a URL.
-/

namespace LiveMenu

/-! ### QR codes -/

namespace QrRouter

/-- `menu_url`. -/
def menuUrl (slug : String) : String := "https://localhost/m/" ++ slug

/-- `get_qr_code`, up to the rendering: the URL in the image. -/
def getQrCode (userId : Uuid) : Async String := do
  let restaurant ← RestaurantService.getByOwner userId
  return menuUrl restaurant.slug.val

end QrRouter

/-! ### Paths -/

/-- The segments of a path. -/
def pathSegments : List Char → List (List Char)
  | []      => [[]]
  | c :: cs =>
    if c = '/' then [] :: pathSegments cs
    else
      match pathSegments cs with
      | []      => [[c]]
      | s :: ss => (c :: s) :: ss

/-- Remove dot segments, as every client does before it sends a path; `done` has the segments
already kept, in reverse. A final dot segment leaves the slash before it. -/
def removeDotSegments (done : List (List Char)) : List (List Char) → List (List Char)
  | []       => done.reverse
  | s :: ss  =>
    if s = ['.'] then
      if ss.isEmpty then ([] :: done).reverse else removeDotSegments done ss
    else if s = ['.', '.'] then
      if ss.isEmpty then ([] :: done.tail).reverse else removeDotSegments done.tail ss
    else
      removeDotSegments (s :: done) ss

/-- The parameter of the route `pre/{slug}`, which matches one segment, `[^/]+`. -/
def routeParameter (pre : List (List Char)) (path : List (List Char)) : Option String :=
  match path.getLast? with
  | none    => none
  | some s  => if path.dropLast = pre ∧ s ≠ [] then some (String.ofList s) else none

/-- The slug that arrives at the route `pre/{slug}` when a client follows the link to it. -/
def followLink (pre slug : String) : Option String :=
  routeParameter (pathSegments pre.toList)
    (removeDotSegments [] (pathSegments (pre.toList ++ '/' :: slug.toList)))

example : followLink "m" "la-casa" = some "la-casa" := by decide
example : followLink "m" ".." = none := by decide

end LiveMenu
