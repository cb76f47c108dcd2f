import LiveMenu.Lib.Calendar
import LiveMenu.Lib.Html
import LiveMenu.Model.Analytics

/-!
# The menu as a page

`GET /m/{slug}`: the context that the route builds and the template `menu.html`, line by line. A
Jinja tag leaves the white space before it in the page, and every expression is escaped.
-/

namespace LiveMenu

namespace MenuPage

open Html

/-! ### The context -/

structure DishData where
  name : String
  description : Option String
  price : ℚ
  salePrice : Option ℚ
  imageUrl : Option String
  tags : List String
  featured : Bool

structure CategoryData where
  name : String
  description : Option String
  dishes : List DishData

structure ContextData where
  restaurantName : String
  description : String
  logoUrl : String
  phone : String
  address : String
  categories : List CategoryData

def dishData (dish : MenuDishResponse) : DishData where
  name := dish.name
  description := dish.description
  price := dish.price
  salePrice := dish.salePrice.filter (· ≠ 0)
  imageUrl := dish.imageUrl
  tags := dish.tags.getD []
  featured := dish.featured

def categoryData (cat : MenuCategoryResponse) : CategoryData where
  name := cat.name
  description := cat.description
  dishes := cat.dishes.map dishData

def contextData (menu : MenuResponse) : ContextData where
  restaurantName := menu.restaurantName
  description := menu.description.getD ""
  logoUrl := menu.logoUrl.getD ""
  phone := menu.phone.getD ""
  address := menu.address.getD ""
  categories := menu.categories.map categoryData

/-! ### The style sheet -/

/-- The text of a style sheet, in which nothing is markup. -/
structure StyleSheet where
  text : String
  plain : ∀ c ∈ text.toList, c ≠ '<' ∧ c ≠ '&'

/-- The beginning of a line. -/
def margin (indent : ℕ) : List Char := '\n' :: List.replicate indent ' '

/-- A block of the style sheet. -/
def block (indent : ℕ) (selector : String) (body : List Char) : List Char :=
  margin indent ++ selector.toList ++ " \x7b".toList ++ body ++ margin indent ++ ['\x7d']

def rule (indent : ℕ) (selector : String) (declarations : List String) : List Char :=
  block indent selector (declarations.flatMap fun d => margin (indent + 4) ++ d.toList ++ [';'])

/-- Blocks with a blank line between them. -/
def rules : List (List Char) → List Char := ['\n'].intercalate

/-- The blocks of the style sheet of `menu.html`. -/
def styleBlocks : List (List Char) := [
  rule 8 "*" ["margin: 0", "padding: 0", "box-sizing: border-box"],
  rule 8 "body" [
    "font-family: -apple-system, BlinkMacSystemFont, 'Segoe UI', Roboto, 'Helvetica Neue', " ++
      "Arial, sans-serif",
    "line-height: 1.6", "color: #333",
    "background: linear-gradient(135deg, #667eea 0%, #764ba2 100%)", "min-height: 100vh",
    "padding: 20px"],
  rule 8 ".container" ["max-width: 1000px", "margin: 0 auto", "background: white",
    "border-radius: 20px", "box-shadow: 0 20px 60px rgba(0, 0, 0, 0.3)", "overflow: hidden"],
  rule 8 ".header" ["background: linear-gradient(135deg, #667eea 0%, #764ba2 100%)",
    "color: white", "padding: 40px 30px", "text-align: center"],
  rule 8 ".logo" ["width: 100px", "height: 100px", "border-radius: 50%", "object-fit: cover",
    "margin-bottom: 20px", "border: 4px solid white",
    "box-shadow: 0 4px 10px rgba(0, 0, 0, 0.2)"],
  rule 8 ".restaurant-name" ["font-size: 2.5em", "font-weight: bold", "margin-bottom: 10px",
    "text-shadow: 2px 2px 4px rgba(0, 0, 0, 0.2)"],
  rule 8 ".restaurant-description" ["font-size: 1.1em", "opacity: 0.95", "margin-bottom: 20px"],
  rule 8 ".restaurant-info" ["display: flex", "justify-content: center", "gap: 30px",
    "flex-wrap: wrap", "font-size: 0.95em", "margin-top: 15px"],
  rule 8 ".info-item" ["display: flex", "align-items: center", "gap: 8px"],
  rule 8 ".content" ["padding: 40px 30px"],
  rule 8 ".category" ["margin-bottom: 50px"],
  rule 8 ".category-header" ["border-bottom: 3px solid #667eea", "padding-bottom: 15px",
    "margin-bottom: 30px"],
  rule 8 ".category-name" ["font-size: 2em", "color: #667eea", "font-weight: bold",
    "margin-bottom: 8px"],
  rule 8 ".category-description" ["color: #666", "font-size: 1em"],
  rule 8 ".dishes" ["display: grid", "gap: 25px"],
  rule 8 ".dish" ["display: flex", "gap: 20px", "padding: 20px", "border-radius: 12px",
    "transition: all 0.3s ease", "border: 1px solid #f0f0f0"],
  rule 8 ".dish:hover" ["box-shadow: 0 5px 15px rgba(0, 0, 0, 0.1)",
    "transform: translateY(-2px)"],
  rule 8 ".dish.featured" ["background: linear-gradient(135deg, #fff5e6 0%, #ffe6cc 100%)",
    "border: 2px solid #ff9933"],
  rule 8 ".dish-image" ["width: 120px", "height: 120px", "border-radius: 10px",
    "object-fit: cover", "flex-shrink: 0"],
  rule 8 ".dish-info" ["flex: 1", "display: flex", "flex-direction: column"],
  rule 8 ".dish-header" ["display: flex", "justify-content: space-between", "align-items: start",
    "margin-bottom: 10px", "gap: 15px"],
  rule 8 ".dish-name" ["font-size: 1.3em", "font-weight: 600", "color: #333"],
  rule 8 ".dish-price" ["display: flex", "flex-direction: column", "align-items: flex-end",
    "gap: 5px"],
  rule 8 ".price" ["font-size: 1.4em", "font-weight: bold", "color: #667eea"],
  rule 8 ".original-price" ["text-decoration: line-through", "color: #999", "font-size: 0.9em"],
  rule 8 ".sale-badge" ["background: #ff4444", "color: white", "padding: 3px 8px",
    "border-radius: 5px", "font-size: 0.75em", "font-weight: bold"],
  rule 8 ".dish-description" ["color: #666", "margin-bottom: 12px", "line-height: 1.5"],
  rule 8 ".tags" ["display: flex", "flex-wrap: wrap", "gap: 8px", "margin-top: auto"],
  rule 8 ".tag" ["background: #f0f0f0", "color: #555", "padding: 5px 12px", "border-radius: 15px",
    "font-size: 0.85em"],
  rule 8 ".featured-badge" ["background: linear-gradient(135deg, #ff9933 0%, #ff6600 100%)",
    "color: white", "padding: 5px 12px", "border-radius: 15px", "font-size: 0.85em",
    "font-weight: bold", "box-shadow: 0 2px 5px rgba(255, 102, 0, 0.3)"],
  rule 8 ".no-dishes" ["text-align: center", "color: #999", "padding: 40px", "font-size: 1.1em"],
  rule 8 ".footer" ["background: #f8f9fa", "padding: 20px 30px", "text-align: center",
    "color: #666", "border-top: 1px solid #e9ecef"],
  block 8 "@media (max-width: 768px)" (rules [
    rule 12 "body" ["padding: 10px"],
    rule 12 ".header" ["padding: 30px 20px"],
    rule 12 ".restaurant-name" ["font-size: 1.8em"],
    rule 12 ".content" ["padding: 25px 20px"],
    rule 12 ".dish" ["flex-direction: column"],
    rule 12 ".dish-image" ["width: 100%", "height: 200px"],
    rule 12 ".dish-header" ["flex-direction: column", "align-items: start"],
    rule 12 ".dish-price" ["align-items: flex-start"],
    rule 12 ".restaurant-info" ["flex-direction: column", "gap: 10px"]])]

def styleSheet : StyleSheet where
  text := String.ofList (rules styleBlocks)
  plain := by
    have hplain : ((styleBlocks.intersperse ['\n']).all fun b =>
        b.all fun c => c ≠ '<' ∧ c ≠ '&') = true := by
      decide +kernel
    intro c hc
    rw [String.toList_ofList] at hc
    obtain ⟨b, hb, hc⟩ := List.mem_flatten.mp hc
    exact of_decide_eq_true (List.all_eq_true.mp (List.all_eq_true.mp hplain b hb) c hc)

/-! ### The template -/

/-- `"%.2f"` of a number of cents. -/
def twoDecimals (q : ℚ) : String :=
  let cents := (q * 100).floor.natAbs
  (if q < 0 then "-" else "") ++ toString (cents / 100) ++ "." ++
    String.ofList (Calendar.digits 2 (cents % 100))

/-- A line of the template, up to the first tag of Jinja. -/
def line (indent : ℕ) (s : String) : Piece := .static (margin indent ++ s.toList)

/-- The rest of a line, after a tag of Jinja. -/
def rest (s : String) : Piece := .static s.toList

/-- An expression of the template. -/
def expr (s : String) : Piece := .value s.toList

/-- A line with one expression in it. -/
def lineWith (indent : ℕ) (opening s closing : String) : List Piece :=
  [line indent opening, expr s, rest closing]

/-- `{% if s %}` for a text. -/
def ifText (s : String) (body : List Piece) : List Piece := if s ≠ "" then body else []

def DishData.priceLines (dish : DishData) : List Piece :=
  match dish.salePrice with
  | some salePrice =>
    [line 40 "<span class=\"sale-badge\">OFERTA</span>"] ++
    lineWith 40 "<span class=\"original-price\">$" (twoDecimals dish.price) "</span>" ++
    lineWith 40 "<span class=\"price\">$" (twoDecimals salePrice) "</span>" ++
    [line 40 ""]
  | none           =>
    lineWith 40 "<span class=\"price\">$" (twoDecimals dish.price) "</span>" ++
    [line 40 ""]

def DishData.tagLines (dish : DishData) : List Piece :=
  if dish.tags ≠ [] ∨ dish.featured then
    [line 32 "<div class=\"tags\">", line 36 ""] ++
    (if dish.featured then
      [line 36 "<span class=\"featured-badge\">⭐ Destacado</span>", line 36 ""] else []) ++
    [line 36 ""] ++
    (if dish.tags ≠ [] then
      [line 40 ""] ++
      dish.tags.flatMap (fun tag =>
        lineWith 40 "<span class=\"tag\">" tag "</span>" ++ [line 40 ""]) ++
      [line 36 ""] else []) ++
    [line 32 "</div>", line 32 ""]
  else []

def DishData.lines (dish : DishData) : List Piece :=
  [line 24 "<div class=\"dish ", rest (if dish.featured then "featured" else ""), rest "\">",
    line 28 ""] ++
  ifText (dish.imageUrl.getD "")
    [line 28 "<img src=\"", expr (dish.imageUrl.getD ""), rest "\" alt=\"", expr dish.name,
      rest "\" class=\"dish-image\">", line 28 ""] ++
  [line 28 "<div class=\"dish-info\">", line 32 "<div class=\"dish-header\">"] ++
  lineWith 36 "<h3 class=\"dish-name\">" dish.name "</h3>" ++
  [line 36 "<div class=\"dish-price\">", line 40 ""] ++
  dish.priceLines ++
  [line 36 "</div>", line 32 "</div>", line 32 ""] ++
  ifText (dish.description.getD "")
    (lineWith 32 "<p class=\"dish-description\">" (dish.description.getD "") "</p>" ++
      [line 32 ""]) ++
  [line 32 ""] ++
  dish.tagLines ++
  [line 28 "</div>", line 24 "</div>", line 24 ""]

def CategoryData.lines (category : CategoryData) : List Piece :=
  [line 16 "<div class=\"category\">", line 20 "<div class=\"category-header\">"] ++
  lineWith 24 "<h2 class=\"category-name\">" category.name "</h2>" ++
  [line 24 ""] ++
  ifText (category.description.getD "")
    (lineWith 24 "<p class=\"category-description\">" (category.description.getD "") "</p>" ++
      [line 24 ""]) ++
  [line 20 "</div>", rest "\n", line 20 "<div class=\"dishes\">", line 24 ""] ++
  category.dishes.flatMap DishData.lines ++
  [line 20 "</div>", line 16 "</div>", line 16 ""]

/-- An item of the header, with its icon. -/
def infoItem (icon s : String) : List Piece :=
  [line 16 "<div class=\"info-item\">", line 20 "<span>", rest icon, rest "</span>"] ++
  lineWith 20 "<span>" s "</span>" ++
  [line 16 "</div>", line 16 ""]

def ContextData.headerLines (c : ContextData) : List Piece :=
  [line 4 "<div class=\"container\">", line 8 "<div class=\"header\">", line 12 ""] ++
  ifText c.logoUrl
    [line 12 "<img src=\"", expr c.logoUrl, rest "\" alt=\"", expr c.restaurantName,
      rest "\" class=\"logo\">", line 12 ""] ++
  lineWith 12 "<h1 class=\"restaurant-name\">" c.restaurantName "</h1>" ++
  [line 12 ""] ++
  ifText c.description
    (lineWith 12 "<p class=\"restaurant-description\">" c.description "</p>" ++ [line 12 ""]) ++
  [line 12 "<div class=\"restaurant-info\">", line 16 ""] ++
  ifText c.phone (infoItem "📞" c.phone) ++
  [line 16 ""] ++
  ifText c.address (infoItem "📍" c.address) ++
  [line 12 "</div>", line 8 "</div>", rest "\n"]

def ContextData.contentLines (c : ContextData) : List Piece :=
  [line 8 "<div class=\"content\">", line 12 ""] ++
  (if c.categories ≠ [] then
    [line 16 ""] ++ c.categories.flatMap CategoryData.lines ++ [line 12 ""]
  else
    [line 12 "<div class=\"no-dishes\">",
      line 16 "<p>🍽️ No hay platos disponibles en este momento.</p>", line 12 "</div>",
      line 12 ""]) ++
  [line 8 "</div>", rest "\n"]

/-- `menu.html`. -/
def menuHtml (sheet : StyleSheet) (c : ContextData) : List Piece :=
  [rest "<!DOCTYPE html>", line 0 "<html lang=\"es\">", line 0 "<head>",
    line 4 "<meta charset=\"UTF-8\">",
    line 4 "<meta name=\"viewport\" content=\"width=device-width, initial-scale=1.0\">"] ++
  lineWith 4 "<title>" c.restaurantName " - Menú</title>" ++
  [line 4 "<style>"] ++
  [rest sheet.text] ++
  [line 4 "</style>", line 0 "</head>", line 0 "<body>"] ++
  c.headerLines ++
  c.contentLines ++
  [line 8 "<div class=\"footer\">", line 12 "<p>Powered by LiveMenu 🍴</p>", line 8 "</div>",
    line 4 "</div>", line 0 "</body>", line 0 "</html>"]

/-- The page of a menu. -/
def page (sheet : StyleSheet) (menu : MenuResponse) : String :=
  String.ofList (Html.render (menuHtml sheet (contextData menu)))

end MenuPage

/-- `render_menu`: the menu, with its view recorded, as a page. -/
def renderMenu (P : Platform) (sheet : MenuPage.StyleSheet) (scan : MenuScan) (slug : String)
    (client : Client) (id : Uuid) : Async String := do
  let menu ← MenuService.getMenuBySlug scan slug
  recordScan P menu client id
  return MenuPage.page sheet menu

end LiveMenu
