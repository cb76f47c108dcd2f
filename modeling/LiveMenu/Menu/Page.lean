import LiveMenu.Model.MenuPage
import LiveMenu.Sequential.Menu

/-!
# What the page of a menu shows

Every expression of the template stands in text or in a quoted attribute value. Names, descriptions,
tags and addresses therefore never change the markup of the page, whatever characters the owner of a
restaurant puts in them, and a reader finds on the page exactly the restaurant, the categories and
the dishes of the menu, each dish with its price, in the order of the menu.
-/

namespace LiveMenu

namespace MenuPage

open Html

/-! ### Reading a page -/

/-- What a reader sees of a tag. -/
def tagOf (s : String) : List Html.Event := (Html.run .text s.toList).2

/-- The tags of the elements with a text of the menu. -/
def textTags : List String :=
  ["<h1 class=\"restaurant-name\">", "<p class=\"restaurant-description\">",
    "<h2 class=\"category-name\">", "<p class=\"category-description\">",
    "<h3 class=\"dish-name\">", "<span class=\"original-price\">", "<span class=\"price\">",
    "<p class=\"dish-description\">", "<span class=\"tag\">"]

def wanted : List (List Html.Event) := textTags.map tagOf

example : wanted.Nodup := by decide +kernel

/-- The texts that a reader finds on a page, with the tags of their elements. -/
def textsOf (page : String) : List (List Html.Event × List Char) := elements wanted page.toList

/-! ### What it should say -/

/-- An optional text is left out when it is empty. -/
def given (tag s : String) : List (String × String) := if s ≠ "" then [(tag, s)] else []

/-- A dish on offer has both prices. -/
def priceTexts (d : MenuDishResponse) : List (String × String) :=
  match d.salePrice.filter (· ≠ 0) with
  | some salePrice => [("<span class=\"original-price\">", "$" ++ twoDecimals d.price),
      ("<span class=\"price\">", "$" ++ twoDecimals salePrice)]
  | none           => [("<span class=\"price\">", "$" ++ twoDecimals d.price)]

def dishTexts (d : MenuDishResponse) : List (String × String) :=
  [("<h3 class=\"dish-name\">", d.name)] ++
  priceTexts d ++
  given "<p class=\"dish-description\">" (d.description.getD "") ++
  (d.tags.getD []).map fun tag => ("<span class=\"tag\">", tag)

def categoryTexts (c : MenuCategoryResponse) : List (String × String) :=
  [("<h2 class=\"category-name\">", c.name)] ++
  given "<p class=\"category-description\">" (c.description.getD "") ++
  c.dishes.flatMap dishTexts

/-- The header has the name of the restaurant and its description. -/
def headerTexts (menu : MenuResponse) : List (String × String) :=
  [("<h1 class=\"restaurant-name\">", menu.restaurantName)] ++
  given "<p class=\"restaurant-description\">" (menu.description.getD "")

def menuTexts (menu : MenuResponse) : List (String × String) :=
  headerTexts menu ++ menu.categories.flatMap categoryTexts

/-- The same texts as a reader sees them. -/
def asRead (texts : List (String × String)) : List (List Html.Event × List Char) :=
  texts.map fun t => (tagOf t.1, t.2.toList)

lemma asRead_append (texts texts' : List (String × String)) :
    asRead (texts ++ texts') = asRead texts ++ asRead texts' := List.map_append

lemma asRead_flatMap {ι : Type*} (f : ι → List (String × String)) (xs : List ι) :
    asRead (xs.flatMap f) = xs.flatMap fun x => asRead (f x) := List.map_flatMap

/-! ### The pieces of the template -/

@[simp] lemma skeleton_line (indent : ℕ) (s : String) (ps : List Piece) :
    skeleton (line indent s :: ps) = line indent s :: skeleton ps := rfl

@[simp] lemma skeleton_rest (s : String) (ps : List Piece) :
    skeleton (rest s :: ps) = rest s :: skeleton ps := rfl

@[simp] lemma skeleton_expr (s : String) (ps : List Piece) :
    skeleton (expr s :: ps) = .value [] :: skeleton ps := rfl

/-! ### What the parts of the template show -/

/-- A part of the template without a text of the menu. -/
def Plain (ps : List Piece) : Prop := quiet wanted .text .outside ps
  deriving Decidable

/-- A line of the template that ends with the text of an element. -/
def Opens (indent : ℕ) (opening closing tag : String) (lead : List Char) : Prop :=
  Encloses wanted ('\n' :: List.replicate indent ' ' ++ opening.toList) closing.toList (tagOf tag)
    lead
  deriving Decidable

lemma Plain.shows {ps : List Piece} (h : Plain ps) : Shows wanted ps [] := .of_quiet h

/-- Such a part with expressions in it. -/
lemma Plain.shows_values {ps qs : List Piece} (h : Plain qs) (hps : skeleton ps = qs) :
    Shows wanted ps [] := by
  rw [Plain, ← hps, quiet_skeleton] at h
  exact .of_quiet h

/-- A line with a text of the menu. -/
lemma Opens.shows {indent : ℕ} {tag closing : String} (h : Opens indent tag closing tag [])
    (s : String) : Shows wanted (lineWith indent tag s closing) (asRead [(tag, s)]) :=
  Shows.element h s.toList

/-- A line with an amount. -/
lemma Opens.shows_amount {indent : ℕ} {opening tag closing : String}
    (h : Opens indent opening closing tag ['$']) (s : String) :
    Shows wanted (lineWith indent opening s closing) (asRead [(tag, "$" ++ s)]) := by
  have hs : ("$" ++ s).toList = ['$'] ++ s.toList := String.toList_append
  rw [asRead, List.map_singleton, hs]
  exact Shows.element h s.toList

/-- `{% if s %}` around a text. -/
lemma shows_ifText {s tag : String} {body : List Piece}
    (h : Shows wanted body (asRead [(tag, s)])) :
    Shows wanted (ifText s body) (asRead (given tag s)) := by
  rw [ifText, given]
  split_ifs
  · exact h
  · exact .nil

lemma shows_ifText_plain {s : String} {body : List Piece} (h : Shows wanted body []) :
    Shows wanted (ifText s body) [] := by
  rw [ifText]
  exact .ite (fun _ => h) fun _ => .nil

lemma shows_priceLines (d : MenuDishResponse) :
    Shows wanted (dishData d).priceLines (asRead (priceTexts d)) := by
  obtain ⟨hbadge, horiginal, hprice, hend⟩ :
      Plain [line 40 "<span class=\"sale-badge\">OFERTA</span>"] ∧
      Opens 40 "<span class=\"original-price\">$" "</span>" "<span class=\"original-price\">"
        ['$'] ∧
      Opens 40 "<span class=\"price\">$" "</span>" "<span class=\"price\">" ['$'] ∧
      Plain [line 40 ""] := by
    decide +kernel
  rw [DishData.priceLines, priceTexts, dishData]
  cases d.salePrice.filter (· ≠ 0) with
  | none =>
    exact (hprice.shows_amount _).before hend.shows
  | some salePrice =>
    have hboth := ((horiginal.shows_amount (twoDecimals d.price)).after hbadge.shows).append
      (hprice.shows_amount (twoDecimals salePrice))
    exact hboth.before hend.shows

lemma shows_tagLines (d : MenuDishResponse) :
    Shows wanted (dishData d).tagLines
      (asRead ((d.tags.getD []).map fun tag => ("<span class=\"tag\">", tag))) := by
  obtain ⟨hstart, hfeatured, hif, hfor, htag, hend⟩ :
      Plain [line 32 "<div class=\"tags\">", line 36 ""] ∧
      Plain [line 36 "<span class=\"featured-badge\">⭐ Destacado</span>", line 36 ""] ∧
      Plain [line 36 ""] ∧
      Plain [line 40 ""] ∧
      Opens 40 "<span class=\"tag\">" "</span>" "<span class=\"tag\">" [] ∧
      Plain [line 32 "</div>", line 32 ""] := by
    decide +kernel
  have htags : ∀ tags : List String,
      Shows wanted (tags.flatMap fun tag => lineWith 40 "<span class=\"tag\">" tag "</span>" ++
        [line 40 ""]) (asRead (tags.map fun tag => ("<span class=\"tag\">", tag))) := by
    intro tags
    rw [List.map_eq_flatMap, asRead_flatMap]
    exact Shows.flatMap fun tag => (htag.shows tag).before hfor.shows
  have hbadge : Shows wanted ([line 32 "<div class=\"tags\">", line 36 ""] ++
      (if d.featured then
        [line 36 "<span class=\"featured-badge\">⭐ Destacado</span>", line 36 ""] else []) ++
      [line 36 ""]) [] :=
    (hstart.shows.before (.ite (fun _ => hfeatured.shows) fun _ => .nil)).before hif.shows
  rw [DishData.tagLines, dishData]
  dsimp only
  cases d.tags.getD [] with
  | nil =>
    refine .ite (fun _ => ?_) fun _ => .nil
    rw [if_neg (not_not.mpr rfl)]
    exact (hbadge.before .nil).before hend.shows
  | cons tag tags =>
    rw [if_pos (Or.inl (List.cons_ne_nil _ _)), if_pos (List.cons_ne_nil _ _)]
    have hlist := ((htags (tag :: tags)).after hfor.shows).before hif.shows
    exact (hlist.after hbadge).before hend.shows

lemma shows_dish (d : MenuDishResponse) :
    Shows wanted (dishData d).lines (asRead (dishTexts d)) := by
  obtain ⟨hopen, himage, hinfo, hname, hprice, hheader, hdescription, hline, hend⟩ :
      (∀ featured : Bool, Plain [line 24 "<div class=\"dish ",
        rest (if featured then "featured" else ""), rest "\">", line 28 ""]) ∧
      Plain [line 28 "<img src=\"", .value [], rest "\" alt=\"", .value [],
        rest "\" class=\"dish-image\">", line 28 ""] ∧
      Plain [line 28 "<div class=\"dish-info\">", line 32 "<div class=\"dish-header\">"] ∧
      Opens 36 "<h3 class=\"dish-name\">" "</h3>" "<h3 class=\"dish-name\">" [] ∧
      Plain [line 36 "<div class=\"dish-price\">", line 40 ""] ∧
      Plain [line 36 "</div>", line 32 "</div>", line 32 ""] ∧
      Opens 32 "<p class=\"dish-description\">" "</p>" "<p class=\"dish-description\">" [] ∧
      Plain [line 32 ""] ∧
      Plain [line 28 "</div>", line 24 "</div>", line 24 ""] := by
    decide +kernel
  have hstart : Shows wanted ([line 24 "<div class=\"dish ",
      rest (if d.featured then "featured" else ""), rest "\">", line 28 ""] ++
      ifText (d.imageUrl.getD "") [line 28 "<img src=\"", expr (d.imageUrl.getD ""),
        rest "\" alt=\"", expr d.name, rest "\" class=\"dish-image\">", line 28 ""]) [] :=
    (hopen d.featured).shows.before (shows_ifText_plain (himage.shows_values rfl))
  have hprices := (((hname.shows d.name).after (hstart.before hinfo.shows)).before
    hprice.shows).append (shows_priceLines d)
  have htext := shows_ifText ((hdescription.shows (d.description.getD "")).before hline.shows)
  have hall := (((hprices.before hheader.shows).append htext).before hline.shows).append
    (shows_tagLines d)
  rw [dishTexts, asRead_append, asRead_append, asRead_append]
  exact hall.before hend.shows

lemma shows_category (c : MenuCategoryResponse) :
    Shows wanted (categoryData c).lines (asRead (categoryTexts c)) := by
  obtain ⟨hopen, hname, hline, hdescription, hdishes, hend⟩ :
      Plain [line 16 "<div class=\"category\">", line 20 "<div class=\"category-header\">"] ∧
      Opens 24 "<h2 class=\"category-name\">" "</h2>" "<h2 class=\"category-name\">" [] ∧
      Plain [line 24 ""] ∧
      Opens 24 "<p class=\"category-description\">" "</p>" "<p class=\"category-description\">" [] ∧
      Plain [line 20 "</div>", rest "\n", line 20 "<div class=\"dishes\">", line 24 ""] ∧
      Plain [line 20 "</div>", line 16 "</div>", line 16 ""] := by
    decide +kernel
  have htext := shows_ifText ((hdescription.shows (c.description.getD "")).before hline.shows)
  have hheader := (((hname.shows c.name).after hopen.shows).before hline.shows).append htext
  have hlist : Shows wanted ((categoryData c).dishes.flatMap DishData.lines)
      (asRead (c.dishes.flatMap dishTexts)) := by
    rw [categoryData, List.flatMap_map, asRead_flatMap]
    exact Shows.flatMap shows_dish
  rw [categoryTexts, asRead_append, asRead_append]
  exact ((hheader.before hdishes.shows).append hlist).before hend.shows

/-! ### The page -/

lemma shows_infoItem {icon : String} (hicon : icon = "📞" ∨ icon = "📍") (s : String) :
    Shows wanted (infoItem icon s) [] := by
  obtain ⟨hphone, haddress, hitem, hend⟩ :
      Plain [line 16 "<div class=\"info-item\">", line 20 "<span>", rest "📞", rest "</span>"] ∧
      Plain [line 16 "<div class=\"info-item\">", line 20 "<span>", rest "📍", rest "</span>"] ∧
      Plain [line 20 "<span>", .value [], rest "</span>"] ∧
      Plain [line 16 "</div>", line 16 ""] := by
    decide +kernel
  obtain rfl | rfl := hicon
  · exact (hphone.shows.before (hitem.shows_values rfl)).before hend.shows
  · exact (haddress.shows.before (hitem.shows_values rfl)).before hend.shows

lemma shows_headerLines (menu : MenuResponse) :
    Shows wanted (contextData menu).headerLines (asRead (headerTexts menu)) := by
  obtain ⟨hopen, hlogo, hname, hline, hdescription, hinfo, hitems, hend⟩ :
      Plain [line 4 "<div class=\"container\">", line 8 "<div class=\"header\">", line 12 ""] ∧
      Plain [line 12 "<img src=\"", .value [], rest "\" alt=\"", .value [],
        rest "\" class=\"logo\">", line 12 ""] ∧
      Opens 12 "<h1 class=\"restaurant-name\">" "</h1>" "<h1 class=\"restaurant-name\">" [] ∧
      Plain [line 12 ""] ∧
      Opens 12 "<p class=\"restaurant-description\">" "</p>" "<p class=\"restaurant-description\">"
        [] ∧
      Plain [line 12 "<div class=\"restaurant-info\">", line 16 ""] ∧
      Plain [line 16 ""] ∧
      Plain [line 12 "</div>", line 8 "</div>", rest "\n"] := by
    decide +kernel
  have hstart : Shows wanted ([line 4 "<div class=\"container\">", line 8 "<div class=\"header\">",
      line 12 ""] ++ ifText (contextData menu).logoUrl
        [line 12 "<img src=\"", expr (contextData menu).logoUrl, rest "\" alt=\"",
          expr menu.restaurantName, rest "\" class=\"logo\">", line 12 ""]) [] :=
    hopen.shows.before (shows_ifText_plain (hlogo.shows_values rfl))
  have htext := shows_ifText ((hdescription.shows (menu.description.getD "")).before hline.shows)
  have hnamed := (((hname.shows menu.restaurantName).after hstart).before hline.shows).append htext
  have hphone := shows_ifText_plain (s := (contextData menu).phone)
    (shows_infoItem (.inl rfl) (contextData menu).phone)
  have haddress := shows_ifText_plain (s := (contextData menu).address)
    (shows_infoItem (.inr rfl) (contextData menu).address)
  have hitem := ((hnamed.before hinfo.shows).before hphone).before hitems.shows
  rw [headerTexts, asRead_append]
  exact (hitem.before haddress).before hend.shows

lemma shows_contentLines (menu : MenuResponse) :
    Shows wanted (contextData menu).contentLines
      (asRead (menu.categories.flatMap categoryTexts)) := by
  obtain ⟨hopen, hfor, hif, hempty, hend⟩ :
      Plain [line 8 "<div class=\"content\">", line 12 ""] ∧
      Plain [line 16 ""] ∧
      Plain [line 12 ""] ∧
      Plain [line 12 "<div class=\"no-dishes\">",
        line 16 "<p>🍽️ No hay platos disponibles en este momento.</p>", line 12 "</div>",
        line 12 ""] ∧
      Plain [line 8 "</div>", rest "\n"] := by
    decide +kernel
  have hlist : Shows wanted ((contextData menu).categories.flatMap CategoryData.lines)
      (asRead (menu.categories.flatMap categoryTexts)) := by
    rw [contextData, List.flatMap_map, asRead_flatMap]
    exact Shows.flatMap shows_category
  rw [ContextData.contentLines]
  refine Shows.before (Shows.after (.ite (fun _ => ?_) fun h => ?_) hopen.shows) hend.shows
  · exact (hlist.after hfor.shows).before hif.shows
  · have hnone : menu.categories = [] := List.map_eq_nil_iff.mp (not_not.mp h)
    rw [hnone]
    exact hempty.shows

lemma shows_menuHtml (sheet : StyleSheet) (menu : MenuResponse) :
    Shows wanted (menuHtml sheet (contextData menu)) (asRead (menuTexts menu)) := by
  obtain ⟨hopen, htitle, hstyle, hbody, hfooter⟩ :
      Plain [rest "<!DOCTYPE html>", line 0 "<html lang=\"es\">", line 0 "<head>",
        line 4 "<meta charset=\"UTF-8\">",
        line 4 "<meta name=\"viewport\" content=\"width=device-width, initial-scale=1.0\">"] ∧
      Plain [line 4 "<title>", .value [], rest " - Menú</title>"] ∧
      Plain [line 4 "<style>"] ∧
      Plain [line 4 "</style>", line 0 "</head>", line 0 "<body>"] ∧
      Plain [line 8 "<div class=\"footer\">", line 12 "<p>Powered by LiveMenu 🍴</p>",
        line 8 "</div>", line 4 "</div>", line 0 "</body>", line 0 "</html>"] := by
    decide +kernel
  have hhead : Shows wanted ([rest "<!DOCTYPE html>", line 0 "<html lang=\"es\">", line 0 "<head>",
      line 4 "<meta charset=\"UTF-8\">",
      line 4 "<meta name=\"viewport\" content=\"width=device-width, initial-scale=1.0\">"] ++
      lineWith 4 "<title>" menu.restaurantName " - Menú</title>") [] :=
    hopen.shows.before (htitle.shows_values rfl)
  have hsheet := ((hhead.before hstyle.shows).before (.plain sheet.plain)).before hbody.shows
  rw [menuTexts, asRead_append]
  exact (((shows_headerLines menu).after hsheet).append (shows_contentLines menu)).before
    hfooter.shows

/-! ### Two pages with the same markup -/

/-- Only whether a text is empty. -/
def hidden (s : String) : String := if s = "" then "" else "x"

lemma getD_map_hidden (s : Option String) : (s.map hidden).getD "" = "" ↔ s.getD "" = "" := by
  cases s with
  | none => rfl
  | some s =>
    rw [Option.map_some, Option.getD_some, Option.getD_some, hidden]
    split_ifs with h
    · exact ⟨fun _ => h, fun _ => rfl⟩
    · exact ⟨fun hx => absurd hx (by decide), fun hs => absurd hs h⟩

/-- The dish with neither its texts nor its prices: what it has, whether it is on offer and how many
tags there are. -/
def redactDish (d : MenuDishResponse) : MenuDishResponse :=
  { d with
    name := ""
    description := d.description.map hidden
    price := 0
    salePrice := (d.salePrice.filter (· ≠ 0)).map fun _ => 1
    imageUrl := d.imageUrl.map hidden
    tags := d.tags.map (·.map fun _ => "") }

def redactCategory (c : MenuCategoryResponse) : MenuCategoryResponse :=
  { c with
    name := ""
    description := c.description.map hidden
    dishes := c.dishes.map redactDish }

def redact (menu : MenuResponse) : MenuResponse :=
  { menu with
    restaurantName := ""
    description := menu.description.map hidden
    logoUrl := menu.logoUrl.map hidden
    phone := menu.phone.map hidden
    address := menu.address.map hidden
    categories := menu.categories.map redactCategory }

@[simp] lemma skeleton_lineWith (indent : ℕ) (opening s closing : String) :
    skeleton (lineWith indent opening s closing) = [line indent opening, .value [], rest closing] :=
  rfl

@[simp] lemma skeleton_ifText (s : String) (body : List Piece) :
    skeleton (ifText s body) = if s = "" then [] else skeleton body := by
  rw [ifText]
  split_ifs <;> trivial

lemma skeleton_priceLines (d : MenuDishResponse) :
    skeleton (dishData (redactDish d)).priceLines = skeleton (dishData d).priceLines := by
  rw [DishData.priceLines, DishData.priceLines, dishData, dishData, redactDish]
  dsimp only
  cases d.salePrice.filter (· ≠ 0) with
  | none => rfl
  | some salePrice => rfl

lemma skeleton_tagLines (d : MenuDishResponse) :
    skeleton (dishData (redactDish d)).tagLines = skeleton (dishData d).tagLines := by
  have htags : (dishData (redactDish d)).tags = (dishData d).tags.map fun _ => "" := by
    rw [dishData, dishData, redactDish]
    cases d.tags <;> rfl
  have hfeatured : (dishData (redactDish d)).featured = (dishData d).featured := rfl
  rw [DishData.tagLines, DishData.tagLines, htags, hfeatured]
  simp only [ne_eq, List.map_eq_nil_iff, List.flatMap_map, apply_ite skeleton, skeleton_append,
    skeleton_flatMap, skeleton_lineWith, skeleton_line, skeleton_nil]

lemma skeleton_dish (d : MenuDishResponse) :
    skeleton (dishData (redactDish d)).lines = skeleton (dishData d).lines := by
  have hdescription : (dishData (redactDish d)).description.getD "" = "" ↔
      (dishData d).description.getD "" = "" := getD_map_hidden d.description
  have himage : (dishData (redactDish d)).imageUrl.getD "" = "" ↔
      (dishData d).imageUrl.getD "" = "" := getD_map_hidden d.imageUrl
  have hfeatured : (dishData (redactDish d)).featured = (dishData d).featured := rfl
  simp only [DishData.lines, skeleton_append, skeleton_ifText, skeleton_lineWith, skeleton_line,
    skeleton_rest, skeleton_expr, skeleton_nil, skeleton_priceLines, skeleton_tagLines,
    hdescription, himage, hfeatured]

lemma skeleton_category (c : MenuCategoryResponse) :
    skeleton (categoryData (redactCategory c)).lines = skeleton (categoryData c).lines := by
  have hdescription := getD_map_hidden c.description
  simp only [CategoryData.lines, categoryData, redactCategory, skeleton_append, skeleton_ifText,
    skeleton_lineWith, skeleton_line, skeleton_rest, skeleton_nil, hdescription, List.map_map,
    List.flatMap_map, skeleton_flatMap, Function.comp_apply, skeleton_dish]

lemma skeleton_menuHtml (sheet : StyleSheet) (menu : MenuResponse) :
    skeleton (menuHtml sheet (contextData (redact menu)))
      = skeleton (menuHtml sheet (contextData menu)) := by
  have hdescription := getD_map_hidden menu.description
  have hlogo := getD_map_hidden menu.logoUrl
  have hphone := getD_map_hidden menu.phone
  have haddress := getD_map_hidden menu.address
  simp only [menuHtml, ContextData.headerLines, ContextData.contentLines, infoItem, contextData,
    redact, skeleton_append, skeleton_ifText, skeleton_lineWith, skeleton_line, skeleton_rest,
    skeleton_expr, skeleton_nil, hdescription, hlogo, hphone, haddress,
    List.map_map, List.flatMap_map, skeleton_flatMap, Function.comp_apply, skeleton_category,
    apply_ite skeleton, ne_eq, List.map_eq_nil_iff]

/-! ### Results -/

/-- No text that is stored for a menu is read as markup: a reader of the page sees the markup of the
template, with the texts as they are, and the markup is that of the page of a menu without texts. -/
theorem texts_are_never_markup (sheet : StyleSheet) (menu : MenuResponse) :
    Html.read (page sheet menu).toList = (readPieces .text (menuHtml sheet (contextData menu))).2 ∧
      markup (Html.read (page sheet menu).toList)
        = markup (Html.read (page sheet (redact menu)).toList) := by
  have hsafe := (shows_menuHtml sheet menu).safe
  have hsafe' := (shows_menuHtml sheet (redact menu)).safe
  rw [page, page, String.toList_ofList, String.toList_ofList]
  constructor
  · rw [Html.read, run_render hsafe]
  · exact markup_eq_of_skeleton hsafe hsafe' (skeleton_menuHtml sheet menu).symm

/-- Texts with the characters that markup is made of. -/
def markupServed : World := runEvents Platform.plain sopaServed [
  .request (.admin 1 (.restaurantUpdate 5
    { description := .set ⟨"<b>Ana's</b> & \"Luis\"", by decide⟩ })),
  .request (.admin 1 (.dishUpdate 30 {
    name := .set ⟨"</h3>Sopa", by decide⟩
    description := .set ⟨"1 < 2 &lt; 3", by decide⟩
    imageUrl := .set (PyStr.ofString "x\" onerror=\"alert(1)")
    tags := .set [PyStr.ofString "<script>"] }))]

/-- The texts of its menu. -/
def markupTexts : List (String × String) :=
  [("<h1 class=\"restaurant-name\">", "Casa"),
    ("<p class=\"restaurant-description\">", "<b>Ana's</b> & \"Luis\""),
    ("<h2 class=\"category-name\">", "Platos"), ("<h3 class=\"dish-name\">", "</h3>Sopa"),
    ("<span class=\"price\">", "$5.00"), ("<p class=\"dish-description\">", "1 < 2 &lt; 3"),
    ("<span class=\"tag\">", "<script>")]

lemma markupServed_menu :
    ∃ menu, ((MenuService.getMenuBySlug .stored "casa").exec markupServed).1 = .ok menu ∧
      menuTexts menu = markupTexts := by
  have hrun : (((MenuService.getMenuBySlug .stored "casa").exec markupServed).1.toOption.map
      menuTexts) = some markupTexts := by
    decide +kernel
  obtain ⟨menu, hmenu, htexts⟩ := Option.map_eq_some_iff.mp hrun
  refine ⟨menu, ?_, htexts⟩
  cases hr : ((MenuService.getMenuBySlug .stored "casa").exec markupServed).1 with
  | error e =>
    rw [hr] at hmenu
    cases hmenu
  | ok menu' =>
    rw [hr] at hmenu
    cases hmenu
    rfl

/-- The page has the tags of the page with other texts in their place. -/
theorem texts_are_never_markup_script :
    ∃ menu, menuTexts menu = markupTexts ∧
      markup (Html.read (page styleSheet menu).toList)
        = markup (Html.read (page styleSheet (redact menu)).toList) := by
  obtain ⟨menu, -, htexts⟩ := markupServed_menu
  exact ⟨menu, htexts, (texts_are_never_markup styleSheet menu).2⟩

/-- What a reader finds on the page of a menu: the restaurant, each category of the menu and under
it each of its dishes, with its prices, description and tags, in the order of the menu. -/
lemma textsOf_page (sheet : StyleSheet) (menu : MenuResponse) :
    textsOf (page sheet menu) = asRead (menuTexts menu) := by
  rw [textsOf, page, String.toList_ofList]
  exact (shows_menuHtml sheet menu).elements

end MenuPage

open MenuPage in
/-- A request for the page fails as one for the menu does, and a page that it gives says what the
menu says. -/
theorem renderMenu_texts (P : Platform) (sheet : StyleSheet) (w : World) (scan : MenuScan)
    (slug : String) (client : Client) (id : Uuid) :
    ((renderMenu P sheet scan slug client id).exec w).1.map textsOf
      = ((MenuService.getMenuBySlug scan slug).exec w).1.map fun menu =>
        asRead (menuTexts menu) := by
  rw [renderMenu, Prog.exec_bind]
  rcases (MenuService.getMenuBySlug scan slug).exec w with ⟨r, w'⟩
  cases r with
  | error e => rfl
  | ok menu =>
    obtain ⟨db, events, -, hrec⟩ := exec_recordScan P menu client id w'
    simp only [Prog.exec_bind_ok hrec, Prog.exec_pure, Except.map, textsOf_page]

open MenuPage in
theorem renderMenu_texts_script :
    ((renderMenu Platform.plain styleSheet .stored "casa" ⟨none, none, none⟩ 40).exec
      markupServed).1.map textsOf = .ok (asRead markupTexts) := by
  obtain ⟨menu, hmenu, htexts⟩ := markupServed_menu
  rw [renderMenu_texts, hmenu, Except.map, htexts]

end LiveMenu
