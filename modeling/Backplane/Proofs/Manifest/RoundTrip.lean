import Backplane.Manifest.Text
import Backplane.Proofs.Toml.Statements
/-!
# `Backplane.Proofs.Manifest.RoundTrip`: manifests are read as they were written

A manifest is written table by table, a declaration's fields on lines of their own and what is empty
left out.  Read again, the lines are the statements that build those very tables, the tables are the
only thing in the document, and each is the record of its declaration: what was left out is empty
again.  So whatever strings are in it, a manifest comes back as it was.

A manifest is a `ModulesConfig`, a declaration a `ModuleDeclaration`.
-/
namespace Backplane

open Toml

/-! ## Tables in a list -/

namespace Toml

variable {k f : String} {v : Value} {tables : List Entries} {es es' : Entries}

/-- The statement that adds an entry to the table opened last. -/
def Statement.ofEntry (e : String × Value) : Statement := .entry [e.1] e.2

/-- The statements that add a table to the list of a key. -/
def tableStatements (k : String) (es : Entries) : List Statement :=
  .append [k] :: es.map Statement.ofEntry

/-- The draft of a document that has nothing in it but the tables of one list. -/
def Draft.listing (k : String) (tables : List Entries) : Draft :=
  if tables = [] then {} else ⟨[(k, .list true (tables.map (.table .header)))], [k]⟩

theorem Draft.listing_concat (k : String) (tables : List Entries) (es : Entries) :
    Draft.listing k (tables ++ [es]) =
      ⟨[(k, .list true (tables.map (.table .header) ++ [.table .header es]))], [k]⟩ := by
  simp [Draft.listing]

theorem Entries.get?_singleton : Entries.get? [(k, v)] k = some v := by
  simp [Entries.get?]

theorem Entries.replace_singleton {v' : Value} : Entries.replace [(k, v)] k v' = [(k, v')] := by
  simp [Entries.replace]

theorem Entries.get?_eq_none (h : f ∉ es.map (·.1)) : es.get? f = none := by
  rw [Entries.get?, Option.map_eq_none_iff, List.find?_eq_none]
  intro e he
  simp only [decide_eq_true_eq]
  rintro rfl
  exact h (List.mem_map_of_mem he)

/-- What is changed in a list of tables is the last of them. -/
theorem within_list {change : Entries → Option Entries} {items : List Value} {o : Toml.Origin} :
    within change [k] [(k, .list true (items ++ [.table o es]))] =
      (change es).map fun es' => [(k, .list true (items ++ [.table o es']))] := by
  simp only [within, Entries.get?_singleton, List.getLast?_concat, List.dropLast_concat,
    Entries.replace_singleton]

theorem Draft.apply_append :
    (Draft.listing k tables).apply (.append [k]) = some (Draft.listing k (tables ++ [[]])) := by
  rw [listing_concat, listing]
  split
  · next h =>
      subst h
      rfl
  · simp only [Draft.apply, Draft.atHeader, List.getLast?_singleton, List.dropLast_singleton, within,
      appendTable, Entries.get?_singleton, Entries.replace_singleton, Option.map_some]

theorem Draft.apply_entry (h : f ∉ es.map (·.1)) :
    (Draft.listing k (tables ++ [es])).apply (Statement.ofEntry (f, v)) =
      some (Draft.listing k (tables ++ [es ++ [(f, v)]])) := by
  rw [listing_concat, listing_concat]
  simp only [Statement.ofEntry, Draft.apply, within_list, insertAt, Entries.get?_eq_none h,
    Option.isNone_none, Bool.and_self, if_true, Option.map_some]

theorem Draft.apply_entries (h : ((es ++ es').map (·.1)).Nodup) :
    (es'.map Statement.ofEntry).foldlM Draft.apply (Draft.listing k (tables ++ [es])) =
      some (Draft.listing k (tables ++ [es ++ es'])) := by
  induction es' generalizing es with
  | nil => simp
  | cons e es' ih =>
      have hkeys : (es.map (·.1) ++ e.1 :: es'.map (·.1)).Nodup := by simpa using h
      have hnew : e.1 ∉ es.map (·.1) := by
        intro hin
        exact (List.nodup_append.mp hkeys).2.2 _ hin _ List.mem_cons_self rfl
      have hrest : ((es ++ [e] ++ es').map (·.1)).Nodup := by simpa using h
      rw [List.map_cons, List.foldlM_cons, Draft.apply_entry hnew]
      simpa using ih hrest

/-- A table is drafted as it was written, if its keys are distinct. -/
theorem Draft.apply_table (h : (es.map (·.1)).Nodup) :
    (tableStatements k es).foldlM Draft.apply (Draft.listing k tables) =
      some (Draft.listing k (tables ++ [es])) := by
  have hentries : (es.map Statement.ofEntry).foldlM Draft.apply (Draft.listing k (tables ++ [[]])) =
      some (Draft.listing k (tables ++ [[] ++ es])) :=
    Draft.apply_entries h
  rw [tableStatements, List.foldlM_cons, Draft.apply_append]
  exact hentries

/-- So are tables one after another. -/
theorem Draft.apply_tables (k : String) (tables : List Entries) {more : List Entries}
    (h : ∀ es ∈ more, (es.map (·.1)).Nodup) :
    (more.flatMap (tableStatements k)).foldlM Draft.apply (Draft.listing k tables) =
      some (Draft.listing k (tables ++ more)) := by
  induction more generalizing tables with
  | nil => simp
  | cons es more ih =>
      have hrest : ∀ es' ∈ more, (es'.map (·.1)).Nodup := fun es' hmem =>
        h es' (List.mem_cons_of_mem _ hmem)
      rw [List.flatMap_cons, List.foldlM_append, Draft.apply_table (h es List.mem_cons_self)]
      simpa using ih (tables ++ [es]) hrest

end Toml

/-! ## Declarations -/

/-- The fields of a declaration; what is empty is left out. -/
def Declaration.fields (d : Declaration) : Entries :=
  ("name", .text d.name) :: (d.unit.toList.map fun u => ("unit", .text u)) ++
    if d.dependsOn.isEmpty then [] else [("depends_on", .list false (d.dependsOn.map .text))]

theorem Declaration.nodup_fields (d : Declaration) : (d.fields.map (·.1)).Nodup := by
  rw [fields]
  cases d.unit <;> cases d.dependsOn <;> simp

theorem mapM_text? (texts : List String) : (texts.map Value.text).mapM text? = some texts := by
  induction texts with
  | nil => rfl
  | cons text texts ih => simp [text?, ih]

/-- Of its fields a declaration is made again; those left out are empty. -/
theorem Declaration.ofValue?_fields (d : Declaration) (o : Toml.Origin) :
    Declaration.ofValue? (.table o d.fields) = some d := by
  obtain ⟨name, unit, dependsOn⟩ := d
  have hlist : list? text? (.list false (dependsOn.map .text)) = some dependsOn :=
    mapM_text? dependsOn
  cases unit <;> cases hd : dependsOn with
  | nil => rfl
  | cons d ds =>
      rw [hd, List.map_cons] at hlist
      simp [ofValue?, fields?, fields, Entries.get?, required, optionalField, withDefault, text?, hlist]

/-! ## Lines -/

section Lines

variable {r : List Char} {d : Declaration} {ds : List Declaration}

/-- The line of a field is read as the entry of that field. -/
theorem statements?_fieldLine {name value : String} {v : Value} (hname : IsBare name.toList)
    (hblank : ∀ c ∈ value.toList.head?, isBlankChar c = false) (hne : value.toList ≠ [])
    (hv : ∀ r, value? depthLimit (value.toList ++ '\n' :: r) = some (v, '\n' :: r)) :
    statements? ((fieldLine name value).toList ++ r) =
      (statements? r).map (Statement.ofEntry (name, v) :: ·) := by
  obtain ⟨c, t, hc⟩ := List.exists_cons_of_ne_nil hne
  obtain ⟨d, u, hd, hbare⟩ := hname.head
  have hline : (fieldLine name value).toList ++ r =
      name.toList ++ ' ' :: '=' :: ' ' :: c :: (t ++ '\n' :: r) := by
    simp [fieldLine, hc]
  have hvalue : value? depthLimit (c :: (t ++ '\n' :: r)) = some (v, '\n' :: r) := by
    have hread := hv r
    rwa [hc] at hread
  have hentry := statement?_entry hname (hblank c (by simp [hc])) hvalue
  rw [String.ofList_toList] at hentry
  rw [hline]
  rw [hd, List.cons_append] at hentry ⊢
  refine statements?_line (opensStatement_of_isBareChar hbare) hentry ?_
  simp only [List.length_cons, List.length_append]
  omega

theorem statements?_text {name text : String} (hname : IsBare name.toList) :
    statements? ((fieldLine name (writeString text)).toList ++ r) =
      (statements? r).map (Statement.ofEntry (name, .text text) :: ·) := by
  obtain ⟨c, t, hhead, hc⟩ := writeString_head text
  refine statements?_fieldLine hname ?_ (by simp [hhead]) fun r => ?_
  · intro d hd
    obtain rfl : c = d := by simpa [hhead] using hd
    rcases hc with rfl | rfl <;> rfl
  · exact value?_string depthLimit text (by simp [Unquoted])

theorem statements?_texts {name : String} {texts : List String} (hname : IsBare name.toList)
    (hne : texts ≠ []) :
    statements? ((fieldLine name ("[" ++ String.intercalate ", " (texts.map writeString) ++ "]")).toList
        ++ r) =
      (statements? r).map (Statement.ofEntry (name, .list false (texts.map .text)) :: ·) := by
  have hlist : ("[" ++ String.intercalate ", " (texts.map writeString) ++ "]").toList =
      '[' :: listed texts ++ [']'] := by
    simp [String.toList_intercalate, listed, Function.comp_def]
  refine statements?_fieldLine hname ?_ (by simp [hlist]) fun r => ?_
  · intro d hd
    obtain rfl : '[' = d := by simpa [hlist] using hd
    rfl
  · rw [hlist, List.append_assoc]
    exact value?_list hne

/-- The text of no declarations is read as an empty list. -/
theorem statements?_empty :
    statements? "modules = []\n".toList = some [Statement.ofEntry ("modules", .list false [])] := by
  have hline : statements? ((fieldLine "modules" "[]").toList ++ []) =
      (statements? []).map (Statement.ofEntry ("modules", .list false []) :: ·) := by
    refine statements?_fieldLine (.of_all (by simp) rfl) ?_ (by simp) fun _ => value?_nil
    intro c hc
    obtain rfl : '[' = c := by simpa using hc
    rfl
  rw [List.append_nil, statements?_nil] at hline
  exact hline

theorem statements?_header :
    statements? ("[[modules]]\n".toList ++ r) = (statements? r).map (.append ["modules"] :: ·) := by
  have hbare : IsBare "modules".toList := .of_all (by simp) rfl
  have hread : statement? ('[' :: '[' :: "modules".toList ++ ']' :: ']' :: '\n' :: r) =
      some (.append ["modules"], r) :=
    statement?_append hbare
  have htext : "[[modules]]\n".toList ++ r = '[' :: '[' :: "modules".toList ++ ']' :: ']' :: '\n' :: r :=
    rfl
  have hlen : r.length < ('[' :: '[' :: "modules".toList ++ ']' :: ']' :: '\n' :: r).length := by
    simp only [List.length_append, List.length_cons]
    omega
  rw [htext]
  exact statements?_line rfl hread hlen

theorem statements?_unit :
    statements? ((d.unit.elim "" fun u => fieldLine "unit" (writeString u)).toList ++ r) =
      (statements? r).map
        ((d.unit.toList.map fun u => Statement.ofEntry ("unit", .text u)) ++ ·) := by
  cases d.unit with
  | none => simp
  | some u => exact statements?_text (.of_all (by simp) rfl)

theorem statements?_dependsOn :
    statements? ((if d.dependsOn.isEmpty then ""
      else fieldLine "depends_on"
        ("[" ++ String.intercalate ", " (d.dependsOn.map writeString) ++ "]")).toList ++ r) =
      (statements? r).map
        ((if d.dependsOn.isEmpty then []
          else [Statement.ofEntry ("depends_on", .list false (d.dependsOn.map .text))]) ++ ·) := by
  cases hd : d.dependsOn.isEmpty with
  | true => simp
  | false =>
      have hne : d.dependsOn ≠ [] := by simpa using hd
      exact statements?_texts (.of_all (by simp) rfl) hne

/-- The text of a declaration is read as its table. -/
theorem statements?_render :
    statements? (d.render.toList ++ r) =
      (statements? r).map (tableStatements "modules" d.fields ++ ·) := by
  have hname : ∀ r, statements? ((fieldLine "name" (writeString d.name)).toList ++ r) =
      (statements? r).map (Statement.ofEntry ("name", .text d.name) :: ·) :=
    fun r => statements?_text (.of_all (by simp) rfl)
  have hfields : tableStatements "modules" d.fields = .append ["modules"] ::
      Statement.ofEntry ("name", .text d.name) ::
        ((d.unit.toList.map fun u => Statement.ofEntry ("unit", .text u)) ++
          if d.dependsOn.isEmpty then []
          else [Statement.ofEntry ("depends_on", .list false (d.dependsOn.map .text))]) := by
    rw [tableStatements, Declaration.fields]
    cases d.dependsOn.isEmpty <;> simp
  rw [Declaration.render]
  simp only [String.toList_append, List.append_assoc]
  rw [statements?_header, hname, statements?_unit, statements?_dependsOn, hfields]
  simp only [Option.map_map, Function.comp_def, List.cons_append, List.append_assoc]

/-- The text of several declarations is read as their tables, in order. -/
theorem statements?_renders (hne : ds ≠ []) :
    statements? (String.intercalate "\n" (ds.map Declaration.render)).toList =
      some ((ds.map Declaration.fields).flatMap (tableStatements "modules")) := by
  rw [String.toList_intercalate, List.map_map]
  induction ds with
  | nil => exact absurd rfl hne
  | cons d ds ih =>
      cases ds with
      | nil =>
          have hlast := statements?_render (d := d) (r := [])
          simpa [statements?_nil] using hlast
      | cons d' ds =>
          have hrest := ih (by simp)
          have hsep : "\n".toList = ['\n'] := rfl
          rw [List.map_cons, hsep] at hrest
          rw [List.map_cons, List.map_cons, List.intercalate_cons_cons, List.append_assoc, hsep,
            List.singleton_append, Function.comp_apply, statements?_render, statements?_newline, hrest]
          simp

end Lines

/-! ## Documents -/

theorem render_head (d : Declaration) (ds : List Declaration) :
    (String.intercalate "\n" ((d :: ds).map Declaration.render)).toList.head? = some '[' := by
  have hd : ∃ t, d.render.toList = '[' :: t := by
    rw [Declaration.render]
    simp only [String.toList_append, List.append_assoc]
    exact ⟨_, rfl⟩
  obtain ⟨t, ht⟩ := hd
  rw [String.toList_intercalate]
  cases ds <;> simp [List.intercalate_cons_cons, ht]

theorem dropMark_of_head {s : List Char} (h : s.head? = some '[') : dropMark s = s := by
  cases s with
  | nil => rfl
  | cons c t =>
      obtain rfl : c = '[' := by simpa using h
      rfl

theorem mapM_ofValue? (ds : List Declaration) :
    (ds.map fun d => Value.table .header d.fields).mapM Declaration.ofValue? = some ds := by
  induction ds with
  | nil => rfl
  | cons d ds ih => simp [Declaration.ofValue?_fields, ih]

/-- A manifest is written as a document with nothing in it but the list of its declarations, and
reading that document gives the manifest back. -/
theorem Manifest.parse_render (m : Manifest) :
    Toml.read? m.render =
      some [("modules", .list (!m.modules.isEmpty) (m.modules.map fun d => .table .header d.fields))] ∧
    Manifest.parse m.render = .ok m := by
  have hread : Toml.read? m.render =
      some [("modules", .list (!m.modules.isEmpty)
        (m.modules.map fun d => .table .header d.fields))] := by
    obtain ⟨ds⟩ := m
    cases ds with
    | nil =>
        have hrender : render ⟨[]⟩ = "modules = []\n" := rfl
        have hmark : dropMark "modules = []\n".toList = "modules = []\n".toList := rfl
        rw [Toml.read?, hrender, hmark, statements?_empty]
        rfl
    | cons d ds =>
        have hkeys : ∀ es ∈ (d :: ds).map Declaration.fields, (es.map (·.1)).Nodup := by
          intro es hes
          obtain ⟨d', -, rfl⟩ := List.mem_map.mp hes
          exact d'.nodup_fields
        have hdraft := Draft.apply_tables "modules" [] hkeys
        have hstart : Draft.listing "modules" [] = {} := rfl
        rw [hstart] at hdraft
        simp only [Toml.read?, render, List.isEmpty_cons, Bool.false_eq_true, if_false,
          dropMark_of_head (render_head d ds), statements?_renders (List.cons_ne_nil d ds), bind,
          Option.bind_some, hdraft, Draft.listing]
        simp
  refine ⟨hread, ?_⟩
  rw [Manifest.parse, hread, Option.bind_some, Entries.get?_singleton, withDefault, list?,
    mapM_ofValue?]

end Backplane
