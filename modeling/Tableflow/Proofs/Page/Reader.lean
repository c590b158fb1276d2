import Tableflow.Proofs.Page.Escape
import Tableflow.Proofs.Text

/-!
# Reading a page

An element of a page is a tag and the text behind it, up to the next tag. `write` writes elements
with their texts escaped, and `elements` cuts a page at its tags and reads the entities of the texts
back, whoever wrote it (`elements_write`). From the elements, `sections` collects what a page shows:
the cells of the rows of data under each second heading.
-/

namespace Tableflow

namespace Page

/-! ## Elements -/

/-- A tag that holds nothing that ends it or begins another one, and no entity. -/
def Proper (tag : String) : Prop := ∀ c ∈ tag.toList, c ∉ ['<', '>', '&']

instance : DecidablePred Proper := fun tag =>
  List.decidableBAll (· ∉ ['<', '>', '&']) tag.toList

/-- A tag and the text behind it. -/
structure Element where
  tag : String
  text : String
  deriving DecidableEq

namespace Element

/-- The element as it stands in a page. -/
def render (e : Element) : String := "<" ++ e.tag ++ ">" ++ Text.escapeText e.text

/-- The characters of the element behind the mark that it begins with. -/
def body (e : Element) : List Char := e.tag.toList ++ '>' :: Text.escape e.text.toList

theorem toList_render (e : Element) : e.render.toList = '<' :: e.body := by
  simp [render, body, Text.escapeText]

/-- The element that the characters behind the beginning of a tag spell. -/
def read (field : List Char) : Element where
  tag := .ofList (field.takeWhile (· ≠ '>'))
  text := .ofList (Text.unescape (field.dropWhile (· ≠ '>')).tail)

theorem read_body {e : Element} (h : Proper e.tag) : read e.body = e := by
  have hname : ∀ c ∈ e.tag.toList, (decide (c ≠ '>')) = true := fun c hc =>
    decide_eq_true fun heq => h c hc (by simp [heq])
  have htake : e.body.takeWhile (· ≠ '>') = e.tag.toList := by
    rw [body, List.takeWhile_append_of_pos hname, List.takeWhile_cons_of_neg (by simp),
      List.append_nil]
  have hdrop : e.body.dropWhile (· ≠ '>') = '>' :: Text.escape e.text.toList := by
    rw [body, List.dropWhile_append_of_pos hname, List.dropWhile_cons_of_neg (by simp)]
  rw [read, htake, hdrop, List.tail_cons, Text.unescape_escape, String.ofList_toList,
    String.ofList_toList]

end Element

/-- The page that some elements make up. -/
def write (es : List Element) : String := String.join (es.map Element.render)

/-- The elements of a page. -/
def elements (page : String) : List Element :=
  (Text.fields '<' page.toList).tail.map Element.read

@[simp]
theorem write_nil : write [] = "" := String.join_nil

theorem write_cons (e : Element) (es : List Element) :
    write (e :: es) = e.render ++ write es := by
  rw [write, List.map_cons, String.join_cons, write]

@[simp]
theorem write_append (es es' : List Element) : write (es ++ es') = write es ++ write es' := by
  rw [write, List.map_append, String.join_append, write, write]

theorem write_flatMap {α : Type} (items : List α) (f : α → List Element) :
    write (items.flatMap f) = String.join (items.map fun a => write (f a)) := by
  induction items with
  | nil => rfl
  | cons a rest ih =>
    rw [List.flatMap_cons, write_append, ih, List.map_cons, String.join_cons]

theorem write_eq_of_unmarked {es : List Element} (h : ∀ e ∈ es, Text.Unmarked e.text) :
    write es = String.join (es.map fun e => "<" ++ e.tag ++ ">" ++ e.text) := by
  have hrender : es.map Element.render = es.map fun e => "<" ++ e.tag ++ ">" ++ e.text :=
    List.map_congr_left fun e he => by rw [Element.render, (h e he).escapeText_eq]
  rw [write, hrender]

theorem toList_write (es : List Element) :
    (write es).toList = es.flatMap fun e => '<' :: e.body := by
  simp [write, String.toList_join, List.flatMap_map, Element.toList_render]

theorem fields_write {es : List Element} (h : ∀ e ∈ es, Proper e.tag) {first : List Char}
    (hfirst : '<' ∉ first) :
    Text.fields '<' (first ++ (write es).toList) = first :: es.map Element.body := by
  rw [toList_write]
  induction es generalizing first with
  | nil => rw [List.flatMap_nil, List.append_nil, Text.fields_eq_singleton hfirst, List.map_nil]
  | cons e rest ih =>
    obtain ⟨he, hrest⟩ := List.forall_mem_cons.1 h
    have hbody : '<' ∉ e.body := by
      simp only [Element.body, List.mem_append, List.mem_cons, not_or]
      exact ⟨fun hmem => he _ hmem (by simp), by decide, Text.not_mem_escape rfl _⟩
    rw [List.flatMap_cons, List.cons_append, Text.fields_append_cons,
      Text.fields_eq_singleton hfirst, ih hrest hbody, List.singleton_append, List.map_cons]

/-- What is read of a page are the elements that it was written from. -/
theorem elements_write {es : List Element} (h : ∀ e ∈ es, Proper e.tag) :
    elements (write es) = es := by
  have hread : es.map (Element.read ∘ Element.body) = es.map id :=
    List.map_congr_left fun e he => Element.read_body (h e he)
  rw [elements, ← List.nil_append (write es).toList, fields_write h (by simp), List.tail_cons,
    List.map_map, hread, List.map_id]

/-! ## Marks and entities -/

/-- The marks of a tag with the ones around it. -/
def tagMarks (tag : String) : List Char := '<' :: Text.marks tag.toList ++ ['>']

theorem marks_write (es : List Element) :
    Text.marks (write es).toList = (es.map (·.tag)).flatMap tagMarks := by
  have hbody (e : Element) : Text.marks ('<' :: e.body) = tagMarks e.tag := by
    have hmarks (c : Char) (text : List Char) (hc : Text.isMark c) :
        Text.marks (c :: text) = c :: Text.marks text := List.filter_cons_of_pos hc
    rw [Element.body, hmarks _ _ rfl, Text.marks_append, hmarks _ _ rfl, Text.marks_escape,
      tagMarks, List.cons_append]
  rw [toList_write, Text.marks, List.filter_flatMap, List.flatMap_map]
  exact congrArg (List.flatMap · es) (funext hbody)

theorem entitiesOnly_write {es : List Element} (h : ∀ e ∈ es, Proper e.tag) :
    Text.EntitiesOnly (write es).toList := by
  rw [toList_write]
  induction es with
  | nil => exact .of_not_mem (by simp)
  | cons e rest ih =>
    obtain ⟨he, hrest⟩ := List.forall_mem_cons.1 h
    have htag : Text.EntitiesOnly ('<' :: e.tag.toList ++ ['>']) :=
      .of_not_mem (by simpa using fun hmem => he _ hmem (by simp))
    have hbody : '<' :: e.body = '<' :: e.tag.toList ++ ['>'] ++ Text.escape e.text.toList := by
      simp [Element.body]
    rw [List.flatMap_cons, hbody]
    exact (htag.append (Text.entitiesOnly_escape _)).append (ih hrest)

/-! ## Sections -/

/-- What an element is to the reader of rows: a cell of data, the beginning of a row, or a second
heading. -/
inductive Part
  | cell
  | row
  | heading
  | other
  deriving DecidableEq

/-- The part that a tag begins, told by its name. -/
def Part.ofTag (tag : String) : Part :=
  match String.ofList (tag.toList.takeWhile (· ≠ ' ')) with
  | "td" => .cell
  | "tr" => .row
  | "h2" => .heading
  | _ => .other

/-- What has been read of a page from its end on: the cells of a row and the rows under a heading
that are still open, and the sections. -/
structure Reading where
  cells : List String
  rows : List (List String)
  sections : List (String × List (List String))

/-- Reads an element. Rows without cells of data are left out. -/
def Reading.extend (e : Element) (r : Reading) : Reading :=
  match Part.ofTag e.tag with
  | .cell => { r with cells := e.text :: r.cells }
  | .row => if r.cells = [] then r else { r with cells := [], rows := r.cells :: r.rows }
  | .heading => ⟨[], [], (e.text, r.rows) :: r.sections⟩
  | .other => r

/-- What is read of some elements in front of what has been read. -/
def readBefore (es : List Element) (r : Reading) : Reading := es.foldr Reading.extend r

/-- The sections of a page, each with its heading and the cells of its rows of data; the first one
has no heading. -/
def sections (page : String) : List (String × List (List String)) :=
  let reading := readBefore (elements page) ⟨[], [], []⟩
  ("", reading.rows) :: reading.sections

/-- The rows under a heading. -/
def rowsUnder (heading page : String) : List (List String) :=
  ((sections page).filter fun s => s.1 = heading).flatMap Prod.snd

variable {r : Reading}

theorem readBefore_append (es es' : List Element) :
    readBefore (es ++ es') r = readBefore es (readBefore es' r) := List.foldr_append

theorem readBefore_cons (e : Element) (es : List Element) :
    readBefore (e :: es) r = (readBefore es r).extend e := rfl

theorem readBefore_of_other {es : List Element} (h : ∀ e ∈ es, Part.ofTag e.tag = .other) :
    readBefore es r = r := by
  induction es with
  | nil => rfl
  | cons e rest ih =>
    obtain ⟨he, hrest⟩ := List.forall_mem_cons.1 h
    rw [readBefore_cons, ih hrest, Reading.extend, he]

theorem extend_of_cell {e : Element} (h : Part.ofTag e.tag = .cell) :
    r.extend e = { r with cells := e.text :: r.cells } := by
  rw [Reading.extend, h]

theorem extend_of_row {e : Element} (h : Part.ofTag e.tag = .row) (hcells : r.cells ≠ []) :
    r.extend e = { r with cells := [], rows := r.cells :: r.rows } := by
  rw [Reading.extend, h, if_neg hcells]

theorem extend_of_row_of_nil {e : Element} (h : Part.ofTag e.tag = .row) (hcells : r.cells = []) :
    r.extend e = r := by
  rw [Reading.extend, h, if_pos hcells]

theorem extend_of_heading {e : Element} (h : Part.ofTag e.tag = .heading) :
    r.extend e = ⟨[], [], (e.text, r.rows) :: r.sections⟩ := by
  rw [Reading.extend, h]

end Page

end Tableflow
