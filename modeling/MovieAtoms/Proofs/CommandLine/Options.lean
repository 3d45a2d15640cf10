import MovieAtoms.CommandLine.Options

/-!
# Options that give a script

A parser takes `-e` as one more line of the script and `-p` as the file of the script, and what else
the arguments ask for stays as it is. Main statement: `Arguments.takesScripts_parse`, by which the
parser of the options does so with every value that does not look like an option.
-/

namespace MovieAtoms.CommandLine

/-- What a parser does with the options that give a script and a value that it accepts, in front of
    arguments that it takes apart. -/
structure Parser.TakesScripts (parse : Parser) (accepts : String → Prop) : Prop where
  line : ∀ value rest given, accepts value → parse rest = .ok given → given.scriptFile = none →
    parse ("-e" :: value :: rest) = .ok { given with lines := value :: given.lines }
  file : ∀ value rest given, accepts value → parse rest = .ok given → given.lines = [] →
    given.scriptFile = none →
      parse ("-p" :: value :: rest) = .ok { given with scriptFile := some value }

/-- Lines of a script, each behind its own option. -/
def lineOptions (lines : List String) : List String := lines.flatMap (["-e", ·])

theorem Parser.TakesScripts.lines {parse : Parser} {accepts : String → Prop}
    (hparse : parse.TakesScripts accepts) {rest : List String} {given : Arguments}
    (hrest : parse rest = .ok given) (hnone : given.scriptFile = none) {lines : List String}
    (hlines : ∀ line ∈ lines, accepts line) :
    parse (lineOptions lines ++ rest) = .ok { given with lines := lines ++ given.lines } := by
  induction lines with
  | nil => exact hrest
  | cons line lines ih =>
      rw [List.forall_mem_cons] at hlines
      exact hparse.line line _ _ hlines.1 (ih hlines.2) hnone

/-! ### What items ask for -/

theorem atMostOne?_eq_some_none {values : List α} : atMostOne? values = some none ↔ values = [] := by
  rcases values with - | ⟨first, - | ⟨second, rest⟩⟩ <;> simp [atMostOne?]

namespace Arguments

variable {items : List Item} {given : Arguments}

/-- Each field of the arguments is told by the items of its own sort. -/
theorem ofItems?_eq_some :
    ofItems? items = some given ↔
      atMostOne? (items.filterMap Item.path?) = some (some given.path) ∧
      items.filterMap Item.line? = given.lines ∧
      atMostOne? (items.filterMap Item.scriptFile?) = some given.scriptFile ∧
      (given.lines = [] ∨ given.scriptFile = none) ∧
      (atMostOne? (items.filter (· = .json))).map Option.isSome = some given.json ∧
      (atMostOne? (items.filterMap Item.dumpLimit?)).map (·.getD 0) = some given.dumpLimit ∧
      (atMostOne? (items.filter (· = .showScript))).map Option.isSome = some given.showScript ∧
      items.count .verbose = given.verbosity := by
  rcases given with ⟨path, lines, scriptFile, json, dumpLimit, showScript, verbosity⟩
  unfold ofItems?
  simp only [Option.bind_eq_bind, Option.bind_eq_some_iff, Option.map_eq_some_iff]
  constructor
  · rintro ⟨_, hpath, _, rfl, file, hfile, h⟩
    split at h
    · cases h
    · rename_i hboth
      rw [Decidable.not_and_iff_not_or_not, Decidable.not_not, Decidable.not_not] at hboth
      simp only [Option.bind_eq_some_iff] at h
      obtain ⟨json, hjson, limit, hlimit, shown, hshown, hgiven⟩ := h
      cases hgiven
      exact ⟨hpath, rfl, hfile, hboth, ⟨json, hjson, rfl⟩, ⟨limit, hlimit, rfl⟩,
        ⟨shown, hshown, rfl⟩, rfl⟩
  · rintro ⟨hpath, rfl, hfile, hboth, ⟨json, hjson, rfl⟩, ⟨limit, hlimit, rfl⟩,
      ⟨shown, hshown, rfl⟩, rfl⟩
    refine ⟨_, hpath, path, rfl, scriptFile, hfile, ?_⟩
    rw [if_neg (by rcases hboth with h | h <;> simp [h])]
    simp only [hjson, hlimit, hshown, Option.bind_some]
    rfl

theorem ofItems?_line {value : String} (h : ofItems? items = some given)
    (hnone : given.scriptFile = none) :
    ofItems? (.line value :: items) = some { given with lines := value :: given.lines } := by
  rw [ofItems?_eq_some] at h ⊢
  simpa [List.filterMap_cons, Item.path?, Item.line?, Item.scriptFile?, Item.dumpLimit?, hnone]
    using h

theorem ofItems?_scriptFile {value : String} (h : ofItems? items = some given)
    (hlines : given.lines = []) (hnone : given.scriptFile = none) :
    ofItems? (.scriptFile value :: items) = some { given with scriptFile := some value } := by
  rw [ofItems?_eq_some, hnone, atMostOne?_eq_some_none] at h
  rw [ofItems?_eq_some]
  simpa [List.filterMap_cons, Item.path?, Item.line?, Item.scriptFile?, Item.dumpLimit?,
    atMostOne?, hlines, h.2.2.1] using h

/-! ### What arguments say -/

/-- An option and its value are one item, whatever follows. -/
theorem items?_valued {option : Valued} {flag value : String} {rest : List String} {item : Item}
    (hflag : argument flag.toList = some ([], .value option))
    (hvalue : isOption value.toList = false) (hitem : option.item? value.toList = some item) :
    items? .anything (flag :: value :: rest) = (items? .anything rest).map (item :: ·) := by
  rw [items?, hflag]
  simp only [Option.bind_eq_bind, Option.bind_some, List.nil_append]
  rw [items?, if_neg (Bool.eq_false_iff.mp hvalue), hitem]
  cases items? .anything rest <;> rfl

theorem parse_eq_ok {arguments : List String} :
    parse arguments = .ok given ↔
      ∃ items, items? .anything arguments = some items ∧ ofItems? items = some given := by
  rw [← Option.bind_eq_some_iff, parse]
  cases (items? .anything arguments).bind ofItems? <;> simp

/-- The parser of the options takes scripts with values that do not look like options. -/
theorem takesScripts_parse :
    Parser.TakesScripts parse fun value => isOption value.toList = false := by
  constructor
  · intro value rest given hvalue hrest hnone
    obtain ⟨items, hitems, hgiven⟩ := parse_eq_ok.mp hrest
    have hitem : Valued.line.item? value.toList = some (.line value) := by
      rw [Valued.item?, String.ofList_toList]
    refine parse_eq_ok.mpr ⟨.line value :: items, ?_, ofItems?_line hgiven hnone⟩
    rw [items?_valued (by decide) hvalue hitem, hitems, Option.map_some]
  · intro value rest given hvalue hrest hlines hnone
    obtain ⟨items, hitems, hgiven⟩ := parse_eq_ok.mp hrest
    have hitem : Valued.scriptFile.item? value.toList = some (.scriptFile value) := by
      rw [Valued.item?, String.ofList_toList]
    refine parse_eq_ok.mpr ⟨.scriptFile value :: items, ?_, ofItems?_scriptFile hgiven hlines hnone⟩
    rw [items?_valued (by decide) hvalue hitem, hitems, Option.map_some]

end Arguments

end MovieAtoms.CommandLine
