import LintRepair.Proofs.Json.Settled
import LintRepair.Proofs.Report
import LintRepair.Proofs.Report.Grouping
import LintRepair.Proofs.Text.Word
import LintRepair.Proofs.Wire.RoundTrip
import LintRepair.Report.Reader

/-!
# Items of a report

A report is read in two steps: the record with its two lists as a whole, and the items of the lists
one by one.  So an item that can be read as data but stands for nothing is passed over without
touching its neighbours, and one that stands for something is found between what the items before
and the items behind it stand for.
-/

namespace LintRepair

namespace Json

theorem isDigit_eq_false_of_isBlank {c : Char} (blank : Text.isBlank c) : c.isDigit = false := by
  rw [← Bool.not_eq_true]
  intro digit
  rw [Text.visible_of_isDigit digit] at blank
  contradiction

/-- A text of blanks holds no value. -/
theorem parse?_of_isAllBlank {s : Text} (all_blank : Text.isAllBlank s) : parse? s = none := by
  have unread : readValue? (s.length + 1) s = none := by
    rw [readValue?]
    cases start : skipGap s with
    | nil => rfl
    | cons c rest =>
        have member : c ∈ s := by
          apply (List.dropWhile_sublist isGap).subset
          change c ∈ skipGap s
          rw [start]
          exact List.mem_cons_self
        have blank := List.all_eq_true.mp all_blank c member
        have differs (d : Char) (visible : Text.isBlank d = false) : c ≠ d := by
          rintro rfl
          exact absurd blank (by simp [visible])
        have no_digits : digits? (c :: rest) = none := by
          rw [digits?, List.takeWhile_cons_of_neg (by simp [isDigit_eq_false_of_isBlank blank])]
          rfl
        have no_whole : whole? (c :: rest) = none := by
          rw [whole?, no_digits]
          rfl
        have no_number : number? (c :: rest) = none := by
          simp only [number?, List.head?_cons, Option.some.injEq, differs '-' (by decide),
            decide_false, if_false, no_whole]
          rfl
        have no_null : Text.after? "null" (c :: rest) = none :=
          if_neg (differs 'n' (by decide)).symm
        have no_true : Text.after? "true" (c :: rest) = none :=
          if_neg (differs 't' (by decide)).symm
        have no_false : Text.after? "false" (c :: rest) = none :=
          if_neg (differs 'f' (by decide)).symm
        split
        · rename_i same
          exact absurd (List.head_eq_of_cons_eq same) (differs '"' (by decide))
        · rename_i same
          exact absurd (List.head_eq_of_cons_eq same) (differs '[' (by decide))
        · rename_i same
          exact absurd (List.head_eq_of_cons_eq same) (differs '{' (by decide))
        · rw [no_null, no_true, no_false, no_number]
          rfl
  rw [parse?, unread]
  rfl

/-- An array with an item put in at an index. -/
def putItem (i : Nat) (item : Json) : Json → Json
  | array items => array (items.take i ++ item :: items.drop i)
  | value => value

/-- Where the value of a member is changed by its key, so are the fields of that key. -/
theorem field?_map_value (members : List (Text × Json)) (change : Text → Json → Json)
    (name : Text) :
    field? (members.map fun m => (m.1, change m.1 m.2)) [name] =
      (field? members [name]).map (Option.map (change name)) := by
  have named : ∀ m ∈ members.filter (fun m => [name].contains m.1), m.1 = name := by simp
  have kept : (members.map fun m => (m.1, change m.1 m.2)).filter (fun m => [name].contains m.1) =
      (members.filter fun m => [name].contains m.1).map fun m => (m.1, change m.1 m.2) :=
    List.filter_map
  rw [field?, field?, kept]
  generalize members.filter (fun m => [name].contains m.1) = found at named
  rcases found with _ | ⟨m, _ | ⟨n, rest⟩⟩
  · rfl
  · have same := named m List.mem_cons_self
    simp [← same]
  · rfl

theorem field?_change_same (members : List (Text × Json)) (name : Text) (change : Json → Json) :
    field? (members.map fun m => (m.1, if m.1 = name then change m.2 else m.2)) [name] =
      (field? members [name]).map (Option.map change) := by
  rw [field?_map_value members fun key value => if key = name then change value else value]
  simp only [if_true]

theorem field?_change_other (members : List (Text × Json)) {name other : Text}
    (differs : other ≠ name) (change : Json → Json) :
    field? (members.map fun m => (m.1, if m.1 = name then change m.2 else m.2)) [other] =
      field? members [other] := by
  rw [field?_map_value members fun key value => if key = name then change value else value]
  simp only [if_neg differs, Option.map_id_fun', Option.map_id_apply]

end Json

namespace Report

open Json

/-- The two lists of a report, as they are in its JSON value. -/
def lists? (value : Json) : Option (List (Option Json)) :=
  value.fields? [["diagnostics"], ["errors"]] 0

/-- One of the two lists of a report. -/
inductive ItemList where
  /-- The diagnostics. -/
  | entries
  /-- The files that could not be analysed. -/
  | failures
  deriving DecidableEq, Repr

namespace ItemList

/-- The key of the list in a record given as an object. -/
def key : ItemList → Text
  | entries => "diagnostics"
  | failures => "errors"

theorem key_entries : entries.key = "diagnostics" := rfl

theorem key_failures : failures.key = "errors" := rfl

/-- The place of the list in a record given as an array. -/
def index : ItemList → Nat
  | entries => 0
  | failures => 1

/-- The items of the list in the JSON value of a report, nothing when there is no such list. -/
def items? (list : ItemList) (value : Json) : Option (List Json) := do
  (← (← lists? value)[list.index]?.join).items?

/-- The JSON value of a report with an item put into the list at an index. -/
def put (list : ItemList) (i : Nat) (item : Json) : Json → Json
  | .object members =>
      .object (members.map fun m => (m.1, if m.1 = list.key then putItem i item m.2 else m.2))
  | .array lists => .array (lists.modify list.index (putItem i item))
  | value => value

end ItemList

/-- What the items of a list stand for; those that stand for nothing are passed over. -/
def decoded (read : Json → Option α) (items : List Json) : List α :=
  items.filterMap fun item => settled? maxItemDepth item >>= read

/-- What a list that may be missing stands for, nothing when an item is no data. -/
def readItems? (read : Json → Option α) (given : Option Json) : Option (List α) :=
  (settledItems? given).map (·.filterMap read)

section Lists

variable {list : ItemList} {i : Nat} {item value : Json} {items : List Json}

theorem lists?_object (members : List (Text × Json)) :
    lists? (.object members) = (field? members ["diagnostics"]).bind fun diagnostics =>
      (field? members ["errors"]).map fun errors => [diagnostics, errors] := by
  simp only [lists?, fields?, List.mapM_cons, List.mapM_nil, Option.bind_eq_bind,
    Option.pure_def, Option.bind_some, Option.map_eq_bind, Option.bind_assoc, Function.comp_def]

theorem lists?_put (list : ItemList) (i : Nat) (item value : Json) :
    lists? (list.put i item value) =
      (lists? value).map (·.modify list.index (Option.map (putItem i item))) := by
  cases value with
  | object members =>
      have apart : ("diagnostics" : Text) ≠ "errors" := by decide
      rw [ItemList.put, lists?_object, lists?_object]
      cases list with
      | entries =>
          have put_field := field?_change_same members "diagnostics" (putItem i item)
          have kept_field := field?_change_other members apart.symm (putItem i item)
          rw [ItemList.key_entries, put_field, kept_field]
          cases field? members ["diagnostics"] <;> cases field? members ["errors"] <;> rfl
      | failures =>
          have put_field := field?_change_same members "errors" (putItem i item)
          have kept_field := field?_change_other members apart (putItem i item)
          rw [ItemList.key_failures, put_field, kept_field]
          cases field? members ["diagnostics"] <;> cases field? members ["errors"] <;> rfl
  | array lists =>
      rcases lists with _ | ⟨diagnostics, _ | ⟨errors, _ | ⟨more, rest⟩⟩⟩ <;> cases list <;>
        simp [ItemList.put, ItemList.index, lists?, fields?]
  | _ => rfl

theorem ofJson?_of_lists {diagnostics errors : Option Json}
    (lists : lists? value = some [diagnostics, errors]) :
    ofJson? value = (readItems? Entry.ofJson? diagnostics).bind fun entries =>
      (readItems? Failure.ofJson? errors).map fun failures => ⟨entries, failures⟩ := by
  rw [lists?] at lists
  simp only [ofJson?, lists, readItems?, Option.bind_eq_bind, Option.bind_some, Option.pure_def,
    Option.map_eq_bind, Option.bind_assoc, Function.comp_def]

theorem exists_lists_of_ofJson? {report : Report} (read : ofJson? value = some report) :
    ∃ diagnostics errors, lists? value = some [diagnostics, errors] ∧
      readItems? Entry.ofJson? diagnostics = some report.entries ∧
      readItems? Failure.ofJson? errors = some report.failures := by
  obtain ⟨found, lists, given⟩ := Option.bind_eq_some_iff.mp read
  split at given
  · simp only [Option.bind_eq_bind, Option.bind_eq_some_iff, Option.pure_def] at given
    obtain ⟨entries, entries_read, failures, failures_read, ⟨⟩⟩ := given
    exact ⟨_, _, lists, Option.map_eq_some_iff.mpr ⟨entries, entries_read, rfl⟩,
      Option.map_eq_some_iff.mpr ⟨failures, failures_read, rfl⟩⟩
  · cases given

/-- A list whose items are known is the array of them. -/
theorem eq_array_of_items? {given : Option Json} (listed : given.bind Json.items? = some items) :
    given = some (.array items) := by
  obtain ⟨value, rfl, items_eq⟩ := Option.bind_eq_some_iff.mp listed
  cases value with
  | array _ =>
      cases items_eq
      rfl
  | _ => cases items_eq

theorem filterMap_between (read : Json → Option α) (before after : List Json) (item : Json) :
    (before ++ item :: after).filterMap read =
      before.filterMap read ++ ((read item).toList ++ after.filterMap read) := by
  rw [List.filterMap_append, List.filterMap_cons]
  cases read item <;> rfl

/-- What settled items stand for is found item by item. -/
theorem decoded_of_mapM {read : Json → Option α} {settled : List Json}
    (items_settled : items.mapM (settled? maxItemDepth) = some settled) :
    decoded read items = settled.filterMap read := by
  induction items generalizing settled with
  | nil =>
      cases items_settled
      rfl
  | cons first items ih =>
      simp only [List.mapM_cons, Option.bind_eq_bind, Option.bind_eq_some_iff,
        Option.pure_def] at items_settled
      obtain ⟨kept, first_settled, later, later_settled, ⟨⟩⟩ := items_settled
      have first_read : (settled? maxItemDepth first >>= read) = read kept := by
        rw [first_settled]
        rfl
      rw [decoded, List.filterMap_cons, first_read, List.filterMap_cons]
      cases read kept with
      | none => exact ih later_settled
      | some a => exact congrArg (a :: ·) (ih later_settled)

/-- An item is put in between what the items before and behind it stand for. -/
theorem readItems?_putItem {read : Json → Option α} {as : List α}
    (items_read : readItems? read (some (.array items)) = some as) (i : Nat) (item : Json) :
    as = decoded read (items.take i) ++ decoded read (items.drop i) ∧
      readItems? read (some (putItem i item (.array items))) =
        (settled? maxItemDepth item).map fun kept =>
          decoded read (items.take i) ++ ((read kept).toList ++ decoded read (items.drop i)) := by
  obtain ⟨settled, items_settled, rfl⟩ := Option.map_eq_some_iff.mp items_read
  change items.mapM (settled? maxItemDepth) = some settled at items_settled
  rw [← List.take_append_drop i items, List.mapM_append] at items_settled
  simp only [Option.bind_eq_bind, Option.bind_eq_some_iff, Option.pure_def] at items_settled
  obtain ⟨before, before_settled, after, after_settled, ⟨⟩⟩ := items_settled
  rw [decoded_of_mapM before_settled, decoded_of_mapM after_settled]
  refine ⟨List.filterMap_append, ?_⟩
  change ((items.take i ++ item :: items.drop i).mapM (settled? maxItemDepth)).map _ = _
  rw [List.mapM_append, List.mapM_cons, before_settled, after_settled]
  cases settled? maxItemDepth item with
  | none => rfl
  | some kept => exact congrArg some (filterMap_between read before after kept)

/-- The diagnostics of a report with an item put in among them. -/
theorem ofJson?_put_entries {report : Report} (read : ofJson? value = some report)
    (listed : ItemList.entries.items? value = some items) (i : Nat) (item : Json) :
    report.entries = decoded Entry.ofJson? (items.take i) ++ decoded Entry.ofJson? (items.drop i) ∧
      ofJson? (ItemList.entries.put i item value) =
        (settled? maxItemDepth item).map fun kept =>
          { report with
            entries := decoded Entry.ofJson? (items.take i) ++
              ((Entry.ofJson? kept).toList ++ decoded Entry.ofJson? (items.drop i)) } := by
  obtain ⟨diagnostics, errors, lists, entries_read, failures_read⟩ := exists_lists_of_ofJson? read
  rw [ItemList.items?, lists] at listed
  obtain rfl : diagnostics = some (.array items) := eq_array_of_items? listed
  obtain ⟨entries_eq, put_read⟩ := readItems?_putItem entries_read i item
  have put_lists : lists? (ItemList.entries.put i item value) =
      some [some (putItem i item (.array items)), errors] := by
    rw [lists?_put, lists]
    rfl
  rw [ofJson?_of_lists put_lists, put_read, failures_read]
  refine ⟨entries_eq, ?_⟩
  cases settled? maxItemDepth item <;> rfl

/-- The failures of a report with an item put in among them. -/
theorem ofJson?_put_failures {report : Report} (read : ofJson? value = some report)
    (listed : ItemList.failures.items? value = some items) (i : Nat) (item : Json) :
    report.failures =
        decoded Failure.ofJson? (items.take i) ++ decoded Failure.ofJson? (items.drop i) ∧
      ofJson? (ItemList.failures.put i item value) =
        (settled? maxItemDepth item).map fun kept =>
          { report with
            failures := decoded Failure.ofJson? (items.take i) ++
              ((Failure.ofJson? kept).toList ++ decoded Failure.ofJson? (items.drop i)) } := by
  obtain ⟨diagnostics, errors, lists, entries_read, failures_read⟩ := exists_lists_of_ofJson? read
  rw [ItemList.items?, lists] at listed
  obtain rfl : errors = some (.array items) := eq_array_of_items? listed
  obtain ⟨failures_eq, put_read⟩ := readItems?_putItem failures_read i item
  have put_lists : lists? (ItemList.failures.put i item value) =
      some [diagnostics, some (putItem i item (.array items))] := by
    rw [lists?_put, lists]
    rfl
  rw [ofJson?_of_lists put_lists, entries_read, put_read]
  refine ⟨failures_eq, ?_⟩
  cases settled? maxItemDepth item <;> rfl

theorem parse?_of_value {output : Text} (written : Json.parse? output = some value) :
    parse? output = ofJson? value := by
  have not_blank : ¬ Text.isAllBlank output := by
    intro all_blank
    rw [parse?_of_isAllBlank all_blank] at written
    cases written
  rw [parse?, if_neg not_blank, written]
  rfl

end Lists

/-- Whether a settled item stands for something in the list. -/
def ItemList.Decodes (list : ItemList) (item : Json) : Prop :=
  match list with
  | entries => (Entry.ofJson? item).isSome
  | failures => (Failure.ofJson? item).isSome

/-- The groups of a report share out its diagnostics. -/
structure Grouped (report : Report) : Prop where
  /-- The names of the files increase in the order of their bytes. -/
  names_increase : (report.byFile.map (·.1)).Pairwise fun a b => Text.bytes a < Text.bytes b
  /-- All groups together hold every diagnostic, each as often as it is reported. -/
  shared_out : (report.byFile.flatMap (·.2)).Perm report.entries
  /-- Every diagnostic is in the group of its file. -/
  grouped : ∀ e ∈ report.entries, ∃ group, (e.filename, group) ∈ report.byFile ∧ e ∈ group
  /-- A group is not empty, and has the diagnostics of its file in reported order. -/
  in_order : ∀ name group, (name, group) ∈ report.byFile →
    group ≠ [] ∧ group = report.entries.filter (·.filename = name)

theorem grouped (report : Report) : report.Grouped where
  names_increase := by
    rw [map_fst_byFile]
    apply (sorted_filenames report).imp
    intro a b before
    exact Text.precedes_iff_bytes_lt.mp (Text.precedes_iff_lt.mpr before)
  shared_out := by
    have distinct : report.filenames.Nodup := (sorted_filenames report).imp fun before => before.ne
    have covered : ∀ e ∈ report.entries, e.filename ∈ report.filenames := fun e member =>
      mem_filenames.mpr ⟨e, member, rfl⟩
    have groups := flatMap_filter_perm distinct covered
    rwa [byFile, List.flatMap_map]
  grouped _ member := exists_group member
  in_order := by
    intro name group member
    obtain ⟨named, rfl⟩ := mem_byFile.mp member
    obtain ⟨e, e_reported, e_named⟩ := mem_filenames.mp named
    refine ⟨?_, rfl⟩
    exact List.ne_nil_of_mem (List.mem_filter.mpr ⟨e_reported, decide_eq_true e_named⟩)

/-- An item put into a list of a report changes only what it stands for itself: nothing when it
does not decode, and the encoding of a diagnostic or a failure comes to that one between what the
items before and behind it stand for.  Only an item that cannot be kept as data makes the report
unreadable.  The diagnostics are shared out by file. -/
theorem items_stand_for_themselves {output changed : Text} {value item : Json} {report : Report}
    {list : ItemList} {items : List Json} {i : Nat} (written : Json.parse? output = some value)
    (reported : parse? output = some report) (listed : list.items? value = some items)
    (put_in : Json.parse? changed = some (list.put i item value)) :
    (∀ kept, settled? maxItemDepth item = some kept → ¬ list.Decodes kept →
      parse? changed = some report) ∧
    (settled? maxItemDepth item = none → parse? changed = none) ∧
    (∀ e : Entry, list = .entries → item = e.toJson →
      report.entries =
        decoded Entry.ofJson? (items.take i) ++ decoded Entry.ofJson? (items.drop i) ∧
      parse? changed = some { report with
        entries :=
          decoded Entry.ofJson? (items.take i) ++ e :: decoded Entry.ofJson? (items.drop i) }) ∧
    (∀ f : Failure, list = .failures → item = f.toJson →
      report.failures =
        decoded Failure.ofJson? (items.take i) ++ decoded Failure.ofJson? (items.drop i) ∧
      parse? changed = some { report with
        failures :=
          decoded Failure.ofJson? (items.take i) ++ f :: decoded Failure.ofJson? (items.drop i) }) ∧
    report.Grouped := by
  rw [parse?_of_value written] at reported
  rw [parse?_of_value put_in]
  refine ⟨?_, ?_, ?_, ?_, report.grouped⟩
  · intro kept settled undecoded
    cases list with
    | entries =>
        obtain ⟨entries_eq, put_read⟩ := ofJson?_put_entries reported listed i item
        have nothing : Entry.ofJson? kept = none := Option.not_isSome_iff_eq_none.mp undecoded
        rw [put_read, settled, Option.map_some, nothing, Option.toList_none, List.nil_append,
          ← entries_eq]
    | failures =>
        obtain ⟨failures_eq, put_read⟩ := ofJson?_put_failures reported listed i item
        have nothing : Failure.ofJson? kept = none := Option.not_isSome_iff_eq_none.mp undecoded
        rw [put_read, settled, Option.map_some, nothing, Option.toList_none, List.nil_append,
          ← failures_eq]
  · intro unsettled
    cases list with
    | entries => rw [(ofJson?_put_entries reported listed i item).2, unsettled, Option.map_none]
    | failures => rw [(ofJson?_put_failures reported listed i item).2, unsettled, Option.map_none]
  · rintro e rfl rfl
    obtain ⟨entries_eq, put_read⟩ := ofJson?_put_entries reported listed i e.toJson
    have settled : settled? maxItemDepth e.toJson = some e.toJson := e.settled?_toJson
    refine ⟨entries_eq, ?_⟩
    rw [put_read, settled, Option.map_some, Entry.carries.read_write e trivial]
    rfl
  · rintro f rfl rfl
    obtain ⟨failures_eq, put_read⟩ := ofJson?_put_failures reported listed i f.toJson
    have settled : settled? maxItemDepth f.toJson = some f.toJson := f.settled?_toJson
    refine ⟨failures_eq, ?_⟩
    rw [put_read, settled, Option.map_some, Failure.carries.read_write f trivial]
    rfl

/-- A diagnostic behind an item that names only a file, with another such item put in at the end or
the diagnostic once more in between. -/
theorem items_stand_for_themselves_around_broken :
    let entry := Entry.accentedEntry
    let broken : Json := .object [("filename", .string "b.ts")]
    let items := [broken, entry.toJson]
    let value : Json := .object [("errors", .array []), ("diagnostics", .array items)]
    let withBroken := (ItemList.entries.put 2 broken value).compact
    let withEntry := (ItemList.entries.put 1 entry.toJson value).compact
    Json.parse? value.compact = some value ∧ parse? value.compact = some ⟨[entry], []⟩ ∧
      ItemList.entries.items? value = some items ∧
      Json.parse? withBroken = some (ItemList.entries.put 2 broken value) ∧
      Json.parse? withEntry = some (ItemList.entries.put 1 entry.toJson value) ∧
      settled? maxItemDepth broken = some broken ∧ ¬ ItemList.entries.Decodes broken ∧
      parse? withBroken = some ⟨[entry], []⟩ ∧ parse? withEntry = some ⟨[entry, entry], []⟩ := by
  intro entry broken items value withBroken withEntry
  have written : Json.parse? value.compact = some value := Json.parse?_compact value
  have reported : parse? value.compact = some ⟨[entry], []⟩ := by
    rw [parse?_of_value written]
    decide +kernel
  have listed : ItemList.entries.items? value = some items := rfl
  have broken_put : Json.parse? withBroken = some (ItemList.entries.put 2 broken value) :=
    Json.parse?_compact _
  have entry_put : Json.parse? withEntry = some (ItemList.entries.put 1 entry.toJson value) :=
    Json.parse?_compact _
  have settled : settled? maxItemDepth broken = some broken := rfl
  have undecoded : ¬ ItemList.entries.Decodes broken := by
    change ¬ (Entry.ofJson? broken).isSome
    decide +kernel
  have broken_isolated := (items_stand_for_themselves written reported listed broken_put).1 broken
    settled undecoded
  have entry_found :=
    ((items_stand_for_themselves written reported listed entry_put).2.2.1 entry rfl rfl).2
  refine ⟨written, reported, listed, broken_put, entry_put, settled, undecoded, broken_isolated, ?_⟩
  rw [entry_found]
  decide +kernel

/-- Arrays nested in one another, one more than the number given. -/
def nested : Nat → Json
  | 0 => .array []
  | n + 1 => .array [nested n]

theorem settled?_nested (depth n : Nat) :
    settled? depth (nested n) = if n < depth then some (nested n) else none := by
  induction n generalizing depth with
  | zero => cases depth <;> simp [nested, settled?]
  | succ n ih =>
      cases depth with
      | zero => simp [nested, settled?]
      | succ depth =>
          rw [nested, settled?]
          simp only [List.mapM_cons, List.mapM_nil, ih]
          by_cases fits : n < depth <;> simp [fits]

/-- An item of 126 nested arrays is data by itself and stands for no diagnostic, yet put into an
empty report it makes the report unreadable: it is nested too deeply there. -/
theorem deep_item_blocks_report :
    let item := nested 125
    let value : Json := .object [("diagnostics", .array []), ("errors", .array [])]
    let changed := (ItemList.entries.put 0 item value).compact
    Json.parse? item.compact = some item ∧ settled? 127 item = some item ∧
      ¬ ItemList.entries.Decodes item ∧ Json.parse? value.compact = some value ∧
      parse? value.compact = some empty ∧ ItemList.entries.items? value = some [] ∧
      Json.parse? changed = some (ItemList.entries.put 0 item value) ∧
      parse? changed = none := by
  intro item value changed
  have written : Json.parse? value.compact = some value := Json.parse?_compact value
  have put_in : Json.parse? changed = some (ItemList.entries.put 0 item value) :=
    Json.parse?_compact _
  have read : ofJson? value = some empty := by decide +kernel
  have listed : ItemList.entries.items? value = some [] := rfl
  have settled : settled? 127 item = some item := by
    rw [settled?_nested, if_pos (by decide)]
  have too_deep : settled? maxItemDepth item = none := by
    rw [settled?_nested, if_neg (by decide)]
  have undecoded : ¬ ItemList.entries.Decodes item := by
    change ¬ (Entry.ofJson? item).isSome
    decide +kernel
  have reported : parse? value.compact = some empty := by rw [parse?_of_value written, read]
  have blocked : parse? changed = none := by
    rw [parse?_of_value put_in, (ofJson?_put_entries read listed 0 item).2, too_deep,
      Option.map_none]
  exact ⟨Json.parse?_compact item, settled, undecoded, written, reported, listed, put_in, blocked⟩

end Report

end LintRepair
