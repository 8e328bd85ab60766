import Mathlib.Data.Finset.Insert
import Mathlib.Data.List.Nodup
import PackageCoupling.Json.Config
import PackageCoupling.Proofs.Json.RoundTrip
import PackageCoupling.Registry.Basic

namespace PackageCoupling

open Json

theorem Json.Format.text : Format ofText text? fun _ => True := by
  constructor
  case legible       => exact legible_ofText
  case ne_null       => simp [ofText]
  case read?_write   => exact fun _ => rfl
  case fits_of_read? => exact fun _ => trivial

theorem BuiltinTable.format : Format toJson ofJson? fun _ => True := by
  refine .ofRecord (fun _ => rfl) (by decide) (fun table => ?legible) (fun {table} _ => ?read) ?fits
  case legible => simp [legible_ofText, Format.text.list.legible]
  case read =>
    have ht := Format.text.list.read?_write fun name (_ : name ∈ table.types) => trivial
    simp [Record.required?_cons, Format.text.read?_write trivial, ht]
  case fits => exact fun _ => trivial

namespace Config

inductive Field where
  | defaultPackage
  | separators
  | builtins
deriving DecidableEq

namespace Field

def all : List Field :=
  [defaultPackage, separators, builtins]

def key : Field → String
  | defaultPackage => "default_package"
  | separators     => "separators"
  | builtins       => "builtin_packages"

theorem mem_all (f : Field) : f ∈ all := by
  cases f <;> decide

theorem key_inj {f f' : Field} (h : f.key = f'.key) : f = f' := by
  cases f <;> cases f' <;> simp [key] at h ⊢

end Field

variable {config : Config} {given : List Field} {cause : ConfigFault}

def value (config : Config) : Field → Json
  | .defaultPackage => .ofText config.defaultPackage
  | .separators     => .ofList .ofText config.separators
  | .builtins       => .ofList BuiltinTable.toJson config.builtins

-- An object that holds just the given fields, in the given order.
def document (config : Config) (given : List Field) : Json :=
  .ofFields (given.map fun f => (f.key, config.value f))

-- A configuration is written with all of its fields.
example : config.toJson = config.document Field.all := rfl

def withDefaults (config : Config) (omitted : Finset Field) : Config where
  defaultPackage := if .defaultPackage ∈ omitted then ({} : Config).defaultPackage else config.defaultPackage
  separators := if .separators ∈ omitted then ({} : Config).separators else config.separators
  builtins := if .builtins ∈ omitted then ({} : Config).builtins else config.builtins

-- What a registry asks of its configuration.
structure Usable (config : Config) : Prop where
  defaultPackage : ¬ ∀ c ∈ config.defaultPackage.toList, Text.isBlankChar c
  separators : "" ∉ config.separators
  builtins : ¬ ∃ table ∈ config.builtins, table.package = ""

-- What is wrong with a configuration that is not usable. Of several such things only the first one counts.
inductive Flawed (config : Config) : ConfigFault → Prop
  | blank (hp : ∀ c ∈ config.defaultPackage.toList, Text.isBlankChar c) : Flawed config .blankDefaultPackage
  | separator (hp : ¬ ∀ c ∈ config.defaultPackage.toList, Text.isBlankChar c) (hs : "" ∈ config.separators) :
    Flawed config .emptySeparator
  | builtins (hp : ¬ ∀ c ∈ config.defaultPackage.toList, Text.isBlankChar c) (hs : "" ∉ config.separators)
    (hb : ∃ table ∈ config.builtins, table.package = "") : Flawed config .unnamedBuiltins

theorem legible_value (field : Field) : (config.value field).Legible := by
  cases field
  case defaultPackage => exact legible_ofText config.defaultPackage
  case separators     => exact Format.text.list.legible config.separators
  case builtins       => exact BuiltinTable.format.list.legible config.builtins

theorem parse?_document : parse? (config.document given).render = some (config.document given) := by
  refine parse?_render (legible_ofFields fun member hm => ?_)
  obtain ⟨field, _, rfl⟩ := List.mem_map.mp hm
  exact legible_value field

def record (config : Config) (given : List Field) : Record :=
  ⟨false, given.map fun f => (f.key, config.value f)⟩

theorem field?_record (field : Field) :
    (config.record given).field? field.key = if field ∈ given then some (config.value field) else none := by
  rw [record]
  induction given
  case nil => rfl
  case cons f given hi =>
    rw [List.map_cons, Record.field?_cons, hi]
    by_cases he : field = f
    case pos => simp [he]
    case neg => simp [he, mt Field.key_inj he]

theorem withDefault?_record {α : Type} {read? : Json → Option α} {a default : α} (field : Field)
    (ha : read? (config.value field) = some a) :
    (config.record given).withDefault? field.key default read? = some (if field ∈ given then a else default) := by
  rw [Record.withDefault?, field?_record]
  by_cases hm : field ∈ given <;> simp [hm, ha]

theorem record?_document (hd : given.Nodup) :
    record? (Field.all.map Field.key) (config.document given) = some (config.record given) := by
  refine record?_ofFields_of_mem (fun member hm => ?mem) ?nodup
  case mem =>
    obtain ⟨field, _, rfl⟩ := List.mem_map.mp hm
    exact List.mem_map_of_mem field.mem_all
  case nodup =>
    rw [List.map_map]
    exact hd.map (f := Field.key) fun _ _ => Field.key_inj

theorem ofJson?_document {omitted : Finset Field} (hg : given.Perm (Field.all.filter (· ∉ omitted))) :
    ofJson? (config.document given) = some (config.withDefaults omitted) := by
  have hd : given.Nodup := hg.nodup_iff.mpr (.filter _ (by decide))
  have hm (field : Field) : field ∈ given ↔ field ∉ omitted := by
    rw [hg.mem_iff, List.mem_filter, decide_eq_true_eq]
    exact and_iff_right field.mem_all
  have hp := @withDefault?_record config given _ text? _ ({} : Config).defaultPackage .defaultPackage rfl
  have hs := @withDefault?_record config given _ (list? text?) config.separators ({} : Config).separators .separators
    (Format.text.list.read?_write fun _ _ => trivial)
  have hb := @withDefault?_record config given _ (list? BuiltinTable.ofJson?) config.builtins ({} : Config).builtins
    .builtins (BuiltinTable.format.list.read?_write fun _ _ => trivial)
  have hr : record? ["default_package", "separators", "builtin_packages"] (config.document given)
      = some (config.record given) := record?_document hd
  simp only [Field.key] at hp hs hb
  simp [ofJson?, hr, hp, hs, hb, hm, withDefaults]

theorem usable_or_flawed (config : Config) : config.Usable ∨ ∃ cause, config.Flawed cause := by
  by_cases hp : ∀ c ∈ config.defaultPackage.toList, Text.isBlankChar c
  case pos => exact .inr ⟨_, .blank hp⟩
  case neg =>
    by_cases hs : "" ∈ config.separators
    case pos => exact .inr ⟨_, .separator hp hs⟩
    case neg =>
      by_cases hb : ∃ table ∈ config.builtins, table.package = ""
      case pos => exact .inr ⟨_, .builtins hp hs hb⟩
      case neg => exact .inl ⟨hp, hs, hb⟩

theorem Flawed.not_usable (h : config.Flawed cause) : ¬ config.Usable := by
  intro hu
  cases h
  case blank hp        => exact hu.defaultPackage hp
  case separator _ hs  => exact hu.separators hs
  case builtins _ _ hb => exact hu.builtins hb

theorem isBlank_defaultPackage :
    Text.isBlank config.defaultPackage ↔ ∀ c ∈ config.defaultPackage.toList, Text.isBlankChar c :=
  List.all_eq_true

theorem any_separators : config.separators.any String.isEmpty ↔ "" ∈ config.separators := by
  simp

theorem any_builtins :
    config.builtins.any (·.package.isEmpty) ↔ ∃ table ∈ config.builtins, table.package = "" := by
  simp

theorem Usable.validate_eq (h : config.Usable) : config.validate = .ok () := by
  rw [validate, fault?, if_neg (mt isBlank_defaultPackage.mp h.defaultPackage),
    if_neg (mt any_separators.mp h.separators), if_neg (mt any_builtins.mp h.builtins)]

theorem Flawed.validate_eq (h : config.Flawed cause) : config.validate = .error (.invalidConfig cause) := by
  rw [validate, fault?]
  cases h
  case blank hp =>
    rw [if_pos (isBlank_defaultPackage.mpr hp)]
  case separator hp hs =>
    rw [if_neg (mt isBlank_defaultPackage.mp hp), if_pos (any_separators.mpr hs)]
  case builtins hp hs hb =>
    rw [if_neg (mt isBlank_defaultPackage.mp hp), if_neg (mt any_separators.mp hs), if_pos (any_builtins.mpr hb)]

theorem ofDocument_eq {text : String} (h : parse? text >>= ofJson? = some config) :
    ofDocument text = config.validate.map fun _ => config := by
  simp only [ofDocument, h]
  cases config.validate <;> rfl

-- A document with some fields of a configuration, however it is spelled, is read as the configuration that has defaults
-- for the others. This is accepted, as it is where a registry is created, just if it is usable.
theorem partial_documents_are_completed (config : Config) {omitted : Finset Field} {given : List Field}
    (hg : given.Perm (Field.all.filter (· ∉ omitted))) :
    let completed := config.withDefaults omitted
    parse? (config.document given).render = some (config.document given)
    ∧ (∀ text, parse? text = some (config.document given) →
      (ofDocument text = .ok completed ↔ completed.Usable)
      ∧ (¬ completed.Usable → ∃ cause, completed.Flawed cause ∧ completed.validate = .error (.invalidConfig cause)
        ∧ ofDocument text = .error (.invalidConfig cause)))
    ∧ ((∃ registry, Registry.create completed = .ok registry) ↔ completed.Usable) := by
  intro completed
  have hd {text : String} (ht : parse? text = some (config.document given)) :
      ofDocument text = completed.validate.map fun _ => completed :=
    ofDocument_eq (by rw [ht, Option.bind_eq_bind, Option.bind_some, ofJson?_document hg])
  have hc : Registry.create completed = completed.validate.map fun _ => Registry.ofConfig completed := by
    rw [Registry.create]
    cases completed.validate <;> rfl
  refine ⟨parse?_document, ?_⟩
  obtain hu | ⟨cause, hf⟩ := completed.usable_or_flawed
  case inl =>
    rw [hu.validate_eq] at hc
    refine ⟨fun text ht => ⟨iff_of_true ?_ hu, absurd hu⟩, iff_of_true ⟨_, hc⟩ hu⟩
    rw [hd ht, hu.validate_eq]
    rfl
  case inr =>
    have hn : ¬ completed.Usable := hf.not_usable
    rw [hf.validate_eq] at hc
    refine ⟨fun text ht => ?_, iff_of_false ?_ hn⟩
    case refine_1 =>
      have he : ofDocument text = .error (.invalidConfig cause) := by
        rw [hd ht, hf.validate_eq]
        rfl
      exact ⟨iff_of_false (by simp [he]) hn, fun _ => ⟨cause, hf, hf.validate_eq, he⟩⟩
    case refine_2 =>
      rintro ⟨registry, hr⟩
      cases hc.symm.trans hr

-- A default package that would be refused is left out, and the other two fields are refused for the one that is
-- checked first, although it comes last.
theorem partial_documents_are_completed_refused :
    let config : Config := { defaultPackage := " ", separators := ["::", ""], builtins := [⟨"", ["Thing"]⟩] }
    let given : List Field := [.builtins, .separators]
    given.Perm (Field.all.filter (· ∉ ({.defaultPackage} : Finset Field)))
    ∧ ofDocument (config.document given).render = .error (.invalidConfig .emptySeparator) := by
  intro config given
  have hg : given.Perm (Field.all.filter (· ∉ ({.defaultPackage} : Finset Field))) := by decide
  have hm : "" ∈ (config.withDefaults {.defaultPackage}).separators := by decide
  obtain ⟨hp, hd, _⟩ := config.partial_documents_are_completed hg
  obtain ⟨_, hr⟩ := hd _ hp
  obtain ⟨cause, hf, -, he⟩ := hr fun hu => hu.separators hm
  cases hf
  case separator       => exact ⟨hg, he⟩
  case blank hb        => exact absurd (hb '+' (by decide)) (by decide)
  case builtins _ hs _ => exact absurd hm hs

end Config
end PackageCoupling
