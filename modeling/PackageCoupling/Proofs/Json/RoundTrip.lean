import PackageCoupling.Metrics.Endpoint
import PackageCoupling.Proofs.Json.Text

namespace PackageCoupling

namespace Json

variable {α : Type} {write : α → Json} {read? : Json → Option α} {fits : α → Prop}

-- A way to write values such that they can be read again. Values fit if documents have room for the numbers in them.
structure Format (write : α → Json) (read? : Json → Option α) (fits : α → Prop) : Prop where
  legible : ∀ a, (write a).Legible
  -- No value is written as if there were none.
  ne_null : ∀ a, write a ≠ .null
  read?_write : ∀ {a}, fits a → read? (write a) = some a
  fits_of_read? : ∀ {v a}, read? v = some a → fits a

theorem natBelow?_ofNat {n bound : Nat} (h : n < bound) : natBelow? bound (ofNat n) = some n := by
  simp [natBelow?, ofNat, Numeral.toNat?, Numeral.ofNat, Nat.ofDigitChars_ten_toDigits, h]

theorem lt_of_natBelow? {n bound : Nat} {v : Json} (h : natBelow? bound v = some n) : n < bound := by
  cases v
  case number m =>
    obtain ⟨_, h⟩ := Option.filter_eq_some_iff.mp h
    simpa using h
  all_goals cases h

theorem mapM_map {β : Type} {f : β → Option α} {g : α → β} {as : List α} (h : ∀ a ∈ as, f (g a) = some a) :
    (as.map g).mapM f = some as := by
  induction as
  case nil => rfl
  case cons a as hi =>
    rw [List.forall_mem_cons] at h
    simp [h.left, hi h.right]

theorem exists_of_mapM {β : Type} {f : β → Option α} {as : List α} {bs : List β} (h : bs.mapM f = some as) :
    ∀ a ∈ as, ∃ b, f b = some a := by
  induction bs generalizing as
  case nil =>
    cases h
    simp
  case cons b bs hi =>
    simp only [List.mapM_cons, Option.bind_eq_bind, Option.bind_eq_some_iff] at h
    obtain ⟨a, ha, as, has, ⟨⟩⟩ := h
    exact List.forall_mem_cons.mpr ⟨⟨b, ha⟩, hi has⟩

theorem option?_of_ne_null {v : Json} (h : v ≠ .null) : option? read? v = some <$> read? v := by
  cases v
  case null => exact absurd rfl h
  all_goals rfl

theorem record?_ofFields_of_mem {names : List String} {fields : List (String × Json)} (hm : ∀ f ∈ fields, f.1 ∈ names)
    (hd : (fields.map (·.1)).Nodup) : record? names (ofFields fields) = some ⟨false, fields⟩ := by
  have hf : fields.filter (fun f => names.contains f.1) = fields := by
    rw [List.filter_eq_self]
    simpa using hm
  rw [ofFields, record?, mapM_map, Option.bind_eq_bind, Option.bind_some, hf, if_pos hd]
  exact fun _ _ => rfl

theorem record?_ofFields {names : List String} {fields : List (String × Json)} (hn : fields.map (·.1) = names)
    (hd : names.Nodup) : record? names (ofFields fields) = some ⟨false, fields⟩ :=
  record?_ofFields_of_mem (fun _ hf => hn ▸ List.mem_map_of_mem hf) (hn ▸ hd)

namespace Record

variable {record : Record} {positional : Bool} {key name : String} {value : Json} {fields : List (String × Json)}

theorem field?_cons : field? ⟨positional, (key, value) :: fields⟩ name
    = if name = key then some value else field? ⟨positional, fields⟩ name := by
  by_cases h : name = key
  case pos => rw [if_pos h, h, field?, List.lookup_cons_self]
  case neg => rw [if_neg h, field?, field?, List.lookup_cons, beq_eq_false_iff_ne.mpr h]

theorem required?_cons : required? ⟨positional, (key, value) :: fields⟩ name read?
    = if name = key then read? value else required? ⟨positional, fields⟩ name read? := by
  rw [required?, field?_cons]
  split <;> rfl

theorem optional?_cons : optional? ⟨positional, (key, value) :: fields⟩ name read?
    = if name = key then option? read? value else optional? ⟨positional, fields⟩ name read? := by
  rw [optional?, field?_cons]
  by_cases h : name = key <;> simp [h, optional?]

end Record

namespace Format

variable {record : Record} {name : String} {a : α} {o : Option α}

theorem list (h : Format write read? fits) : Format (ofList write) (list? read?) fun as => ∀ a ∈ as, fits a := by
  constructor
  case legible       => exact legible_ofList h.legible
  case ne_null       => simp [ofList]
  case read?_write   => exact fun hf => mapM_map fun a ha => h.read?_write (hf a ha)
  case fits_of_read? =>
    intro v as hr a ha
    cases v
    case array items =>
      obtain ⟨v, hv⟩ := exists_of_mapM hr a ha
      exact h.fits_of_read? hv
    all_goals cases hr

theorem option?_ofOption (h : Format write read? fits) (ho : ∀ a ∈ o, fits a) :
    option? read? (ofOption write o) = some o := by
  cases o
  case none   => rfl
  case some a =>
    rw [ofOption, option?_of_ne_null (h.ne_null a), h.read?_write (ho a rfl), Option.map_eq_map, Option.map_some]

theorem fits_of_required? (h : Format write read? fits) (hr : record.required? name read? = some a) : fits a := by
  obtain ⟨v, _, hv⟩ := Option.bind_eq_some_iff.mp hr
  exact h.fits_of_read? hv

theorem fits_of_optional? (h : Format write read? fits) (hr : record.optional? name read? = some o) :
    ∀ a ∈ o, fits a := by
  rintro a rfl
  rw [Record.optional?] at hr
  split at hr
  case h_1 v _ =>
    by_cases hn : v = .null
    case pos =>
      subst hn
      cases hr
    case neg =>
      rw [option?_of_ne_null hn] at hr
      obtain ⟨_, hr, ⟨⟩⟩ := Option.map_eq_some_iff.mp hr
      exact h.fits_of_read? hr
  case h_2 => split at hr <;> cases hr

theorem choice {all : List α} {name : α → String} (h : ∀ a, all.find? (name · == name a) = some a) :
    Format (fun a => ofText (name a)) (choice? all name) fun _ => True := by
  constructor
  case legible       => exact fun a => legible_ofText (name a)
  case ne_null       => simp [ofText]
  case read?_write   => exact fun {a} _ => h a
  case fits_of_read? => exact fun _ => trivial

theorem ofRecord {fields : α → List (String × Json)} {names : List String} {build? : Record → Option α}
    (hn : ∀ a, (fields a).map (·.1) = names) (hd : names.Nodup) (hl : ∀ a, ∀ field ∈ fields a, field.2.Legible)
    (hr : ∀ {a}, fits a → build? ⟨false, fields a⟩ = some a) (hf : ∀ {record a}, build? record = some a → fits a) :
    Format (fun a => ofFields (fields a)) (fun v => record? names v >>= build?) fits := by
  constructor
  case legible     => exact fun a => legible_ofFields (hl a)
  case ne_null     => simp [ofFields]
  case read?_write =>
    intro a h
    rw [record?_ofFields (hn a) hd, Option.bind_eq_bind, Option.bind_some, hr h]
  case fits_of_read? =>
    intro v a h
    obtain ⟨record, _, h⟩ := Option.bind_eq_some_iff.mp h
    exact hf h

end Format

def decode? (read? : Json → Option α) (text : String) : Option α :=
  parse? text >>= read?

-- Whatever fits is read from the text that is written for it, and so is whatever has been read from any text.
structure RoundTrips (write : α → Json) (read? : Json → Option α) (fits : α → Prop) : Prop where
  decode?_render : ∀ a, fits a → decode? read? (write a).render = some a
  decode?_again : ∀ text a, decode? read? text = some a → decode? read? (write a).render = some a

theorem Format.roundTrips (h : Format write read? fits) : RoundTrips write read? fits := by
  have hr (a : α) (hf : fits a) : decode? read? (write a).render = some a := by
    rw [decode?, parse?_render (h.legible a), Option.bind_eq_bind, Option.bind_some, h.read?_write hf]
  refine ⟨hr, fun text a hd => ?_⟩
  obtain ⟨v, _, hv⟩ := Option.bind_eq_some_iff.mp hd
  exact hr a (h.fits_of_read? hv)

end Json

open Json

namespace NodeId

variable {kind : NodeKind}

def Fits (id : NodeId kind) : Prop :=
  id.val < idBound

theorem format : Format (@toJson kind) ofJson? Fits := by
  constructor
  case legible     => exact fun id => legible_ofNat id.val
  case ne_null     => simp [toJson, ofNat]
  case read?_write =>
    intro id h
    rw [toJson, ofJson?, natBelow?_ofNat h, Option.map_some]
  case fits_of_read? =>
    intro v id h
    obtain ⟨n, hn, rfl⟩ := Option.map_eq_some_iff.mp h
    exact lt_of_natBelow? hn

end NodeId

namespace NodeRef

def Fits (node : NodeRef) : Prop :=
  node.id.Fits

theorem ofJsonAmong?_toJson {kinds : List NodeKind} {node : NodeRef} (h : node.Fits)
    (hk : kinds.find? (·.name == node.kind.name) = some node.kind) : ofJsonAmong? kinds node.toJson = some node := by
  have hr : record? ["kind", "id"] node.toJson = some ⟨false, _⟩ := record?_ofFields rfl (by decide)
  have hc : choice? kinds NodeKind.name (ofText node.kind.name) = some node.kind := hk
  simp [ofJsonAmong?, hr, Record.required?_cons, hc, NodeId.format.read?_write h]

theorem fits_of_ofJsonAmong? {kinds : List NodeKind} {v : Json} {node : NodeRef}
    (h : ofJsonAmong? kinds v = some node) : node.Fits := by
  simp only [ofJsonAmong?, Option.bind_eq_bind, Option.bind_eq_some_iff, Option.pure_def, Option.some.injEq] at h
  obtain ⟨record, _, kind, _, id, hi, rfl⟩ := h
  exact NodeId.format.fits_of_required? hi

theorem format : Format toJson ofJson? Fits := by
  constructor
  case legible =>
    intro node
    refine legible_ofFields ?_
    simp [legible_ofText, NodeId.format.legible]
  case ne_null       => simp [toJson, ofFields]
  case read?_write   =>
    intro node h
    exact ofJsonAmong?_toJson h (by cases node.kind <;> decide)
  case fits_of_read? => exact fits_of_ofJsonAmong?

end NodeRef

namespace Endpoint

def Fits (endpoint : Endpoint) : Prop :=
  endpoint.ref.Fits

theorem format : Format toJson ofJson? Fits := by
  constructor
  case legible     => exact fun endpoint => NodeRef.format.legible endpoint.ref
  case ne_null     => exact fun endpoint => NodeRef.format.ne_null endpoint.ref
  case read?_write =>
    intro endpoint h
    have hr : NodeRef.ofJsonAmong? [.package, .type] endpoint.ref.toJson = some endpoint.ref :=
      NodeRef.ofJsonAmong?_toJson h (by cases endpoint <;> rfl)
    rw [ofJson?, toJson, hr]
    cases endpoint <;> rfl
  case fits_of_read? =>
    intro v endpoint h
    obtain ⟨node, hn, hr⟩ := Option.bind_eq_some_iff.mp h
    have he : endpoint.ref = node := by
      obtain ⟨kind, id⟩ := node
      cases kind
      case package | type =>
        cases hr
        rfl
      all_goals cases hr
    rw [Fits, he]
    exact NodeRef.fits_of_ofJsonAmong? hn

end Endpoint

theorem TypeKind.format : Format TypeKind.toJson TypeKind.ofJson? fun _ => True :=
  .choice (by rintro ⟨⟩ <;> decide)

theorem CallableKind.format : Format CallableKind.toJson CallableKind.ofJson? fun _ => True :=
  .choice (by rintro ⟨⟩ <;> decide)

theorem Modifier.format : Format Modifier.toJson Modifier.ofJson? fun _ => True :=
  .choice (by rintro ⟨⟩ <;> decide)

theorem Modifiers.format : Format Modifiers.toJson Modifiers.ofJson? fun _ => True := by
  refine .ofRecord (fun _ => rfl) (by decide) (fun modifiers => ?legible) (fun {modifiers} _ => ?read) ?fits
  case legible => simp [Modifier.format.list.legible]
  case read =>
    have hm := Modifier.format.list.read?_write fun modifier (_ : modifier ∈ modifiers.list) => trivial
    simp [Record.required?_cons, hm]
  case fits => exact fun _ => trivial

namespace Location

theorem format : Format toJson ofJson? fun _ => True := by
  refine .ofRecord (fun _ => rfl) (by decide) (fun location => ?legible) (fun {location} _ => ?read) ?fits
  case legible => simp [legible_ofText, legible_ofNat]
  case read =>
    have hl : natBelow? idBound (ofNat location.line.toNat) = some location.line.toNat :=
      natBelow?_ofNat location.line.toNat_lt
    have hc : natBelow? idBound (ofNat location.col.toNat) = some location.col.toNat :=
      natBelow?_ofNat location.col.toNat_lt
    simp [Record.required?_cons, hl, hc, ofText, text?]
  case fits => exact fun _ => trivial

end Location

namespace Header

theorem format : Format toJson ofJson? fun _ => True := by
  refine .ofRecord (fun _ => rfl) (by decide) (fun header => ?legible) (fun {header} _ => ?read) ?fits
  case legible => simp [legible_ofText, legible_ofOption Location.format.legible]
  case read =>
    have hl : option? Location.ofJson? (ofOption Location.toJson header.location) = some header.location :=
      Location.format.option?_ofOption fun _ _ => trivial
    simp [Record.required?_cons, Record.optional?_cons, hl, ofText, text?]
  case fits => exact fun _ => trivial

end Header

namespace Package

structure Fits (package : Package) : Prop where
  id : package.id.Fits
  types : ∀ t ∈ package.types, t.Fits
  functions : ∀ c ∈ package.functions, c.Fits

theorem format : Format toJson ofJson? Fits := by
  refine .ofRecord (fun _ => rfl) (by decide) (fun package => ?legible) (fun {package} h => ?read) ?fits
  case legible => simp [NodeId.format.legible, Header.format.legible, NodeId.format.list.legible]
  case read =>
    simp [Record.required?_cons, NodeId.format.read?_write h.id, Header.format.read?_write trivial,
      NodeId.format.list.read?_write h.types, NodeId.format.list.read?_write h.functions]
  case fits =>
    intro record package h
    simp only [Option.bind_eq_bind, Option.bind_eq_some_iff, Option.pure_def, Option.some.injEq] at h
    obtain ⟨id, hi, header, _, types, ht, functions, hf, rfl⟩ := h
    exact {
      id := NodeId.format.fits_of_required? hi
      types := NodeId.format.list.fits_of_required? ht
      functions := NodeId.format.list.fits_of_required? hf }

end Package

namespace TypeDecl

structure Fits (type : TypeDecl) : Prop where
  id : type.id.Fits
  package : type.package.Fits
  parent : ∀ t ∈ type.parent, t.Fits
  interfaces : ∀ t ∈ type.interfaces, t.Fits
  constants : ∀ c ∈ type.constants, c.Fits
  properties : ∀ p ∈ type.properties, p.Fits
  methods : ∀ c ∈ type.methods, c.Fits
  dependencies : ∀ t ∈ type.dependencies, t.Fits
  children : ∀ t ∈ type.children, t.Fits

theorem format : Format toJson ofJson? Fits := by
  refine .ofRecord (fun _ => rfl) (by decide) (fun type => ?legible) (fun {type} h => ?read) ?fits
  case legible =>
    simp [NodeId.format.legible, TypeKind.format.legible, Header.format.legible, Modifiers.format.legible,
      legible_ofOption NodeId.format.legible, NodeId.format.list.legible]
  case read =>
    simp [Record.required?_cons, Record.optional?_cons, NodeId.format.read?_write h.id,
      TypeKind.format.read?_write trivial, Header.format.read?_write trivial, NodeId.format.read?_write h.package,
      Modifiers.format.read?_write trivial, NodeId.format.option?_ofOption h.parent,
      NodeId.format.list.read?_write h.interfaces, NodeId.format.list.read?_write h.constants,
      NodeId.format.list.read?_write h.properties, NodeId.format.list.read?_write h.methods,
      NodeId.format.list.read?_write h.dependencies, NodeId.format.list.read?_write h.children]
  case fits =>
    intro record type h
    simp only [Option.bind_eq_bind, Option.bind_eq_some_iff, Option.pure_def, Option.some.injEq] at h
    obtain ⟨id, hid, kind, _, header, _, package, hp, modifiers, _, parent, ht, interfaces, hi, constants, hc,
      properties, hps, methods, hm, dependencies, hd, children, hch, rfl⟩ := h
    exact {
      id := NodeId.format.fits_of_required? hid
      package := NodeId.format.fits_of_required? hp
      parent := NodeId.format.fits_of_optional? ht
      interfaces := NodeId.format.list.fits_of_required? hi
      constants := NodeId.format.list.fits_of_required? hc
      properties := NodeId.format.list.fits_of_required? hps
      methods := NodeId.format.list.fits_of_required? hm
      dependencies := NodeId.format.list.fits_of_required? hd
      children := NodeId.format.list.fits_of_required? hch }

end TypeDecl

namespace Callable

structure Fits (callable : Callable) : Prop where
  id : callable.id.Fits
  owner : ∀ t ∈ callable.owner, t.Fits
  package : ∀ p ∈ callable.package, p.Fits
  parameters : ∀ p ∈ callable.parameters, p.Fits
  dependencies : ∀ t ∈ callable.dependencies, t.Fits
  exceptions : ∀ t ∈ callable.exceptions, t.Fits
  returnType : ∀ t ∈ callable.returnType, t.Fits

theorem format : Format toJson ofJson? Fits := by
  refine .ofRecord (fun _ => rfl) (by decide) (fun callable => ?legible) (fun {callable} h => ?read) ?fits
  case legible =>
    simp [NodeId.format.legible, CallableKind.format.legible, Header.format.legible, Modifiers.format.legible,
      legible_ofOption NodeId.format.legible, NodeId.format.list.legible]
  case read =>
    simp [Record.required?_cons, Record.optional?_cons, NodeId.format.read?_write h.id,
      CallableKind.format.read?_write trivial, Header.format.read?_write trivial,
      NodeId.format.option?_ofOption h.owner, NodeId.format.option?_ofOption h.package,
      Modifiers.format.read?_write trivial, NodeId.format.list.read?_write h.parameters,
      NodeId.format.list.read?_write h.dependencies, NodeId.format.list.read?_write h.exceptions,
      NodeId.format.option?_ofOption h.returnType]
  case fits =>
    intro record callable h
    simp only [Option.bind_eq_bind, Option.bind_eq_some_iff, Option.pure_def, Option.some.injEq] at h
    obtain ⟨id, hi, kind, _, header, _, owner, ho, package, hp, modifiers, _, parameters, hps, dependencies, hd,
      exceptions, he, returnType, hr, rfl⟩ := h
    exact {
      id := NodeId.format.fits_of_required? hi
      owner := NodeId.format.fits_of_optional? ho
      package := NodeId.format.fits_of_optional? hp
      parameters := NodeId.format.list.fits_of_required? hps
      dependencies := NodeId.format.list.fits_of_required? hd
      exceptions := NodeId.format.list.fits_of_required? he
      returnType := NodeId.format.fits_of_optional? hr }

end Callable

namespace Parameter

structure Fits (parameter : Parameter) : Prop where
  id : parameter.id.Fits
  callable : parameter.callable.Fits
  position : parameter.position < countBound
  type : ∀ t ∈ parameter.type, t.Fits

theorem format : Format toJson ofJson? Fits := by
  refine .ofRecord (fun _ => rfl) (by decide) (fun parameter => ?legible) (fun {parameter} h => ?read) ?fits
  case legible =>
    simp [NodeId.format.legible, Header.format.legible, legible_ofNat, legible_ofOption NodeId.format.legible]
  case read =>
    simp [Record.required?_cons, Record.optional?_cons, NodeId.format.read?_write h.id,
      Header.format.read?_write trivial, NodeId.format.read?_write h.callable, natBelow?_ofNat h.position,
      NodeId.format.option?_ofOption h.type]
  case fits =>
    intro record parameter h
    simp only [Option.bind_eq_bind, Option.bind_eq_some_iff, Option.pure_def, Option.some.injEq] at h
    obtain ⟨id, hi, header, _, callable, hc, position, hp, type, ht, rfl⟩ := h
    obtain ⟨_, _, hp⟩ := Option.bind_eq_some_iff.mp hp
    exact {
      id := NodeId.format.fits_of_required? hi
      callable := NodeId.format.fits_of_required? hc
      position := lt_of_natBelow? hp
      type := NodeId.format.fits_of_optional? ht }

end Parameter

namespace Property

structure Fits (property : Property) : Prop where
  id : property.id.Fits
  owner : property.owner.Fits
  type : ∀ t ∈ property.type, t.Fits

theorem format : Format toJson ofJson? Fits := by
  refine .ofRecord (fun _ => rfl) (by decide) (fun property => ?legible) (fun {property} h => ?read) ?fits
  case legible =>
    simp [NodeId.format.legible, Header.format.legible, Modifiers.format.legible,
      legible_ofOption NodeId.format.legible]
  case read =>
    simp [Record.required?_cons, Record.optional?_cons, NodeId.format.read?_write h.id,
      Header.format.read?_write trivial, NodeId.format.read?_write h.owner, Modifiers.format.read?_write trivial,
      NodeId.format.option?_ofOption h.type]
  case fits =>
    intro record property h
    simp only [Option.bind_eq_bind, Option.bind_eq_some_iff, Option.pure_def, Option.some.injEq] at h
    obtain ⟨id, hi, header, _, owner, ho, modifiers, _, type, ht, rfl⟩ := h
    exact {
      id := NodeId.format.fits_of_required? hi
      owner := NodeId.format.fits_of_required? ho
      type := NodeId.format.fits_of_optional? ht }

end Property

namespace Constant

structure Fits (constant : Constant) : Prop where
  id : constant.id.Fits
  owner : constant.owner.Fits
  target : ∀ t ∈ constant.target, t.Fits

theorem format : Format toJson ofJson? Fits := by
  refine .ofRecord (fun _ => rfl) (by decide) (fun constant => ?legible) (fun {constant} h => ?read) ?fits
  case legible => simp [NodeId.format.legible, Header.format.legible, legible_ofOption NodeId.format.legible]
  case read =>
    simp [Record.required?_cons, Record.optional?_cons, NodeId.format.read?_write h.id,
      Header.format.read?_write trivial, NodeId.format.read?_write h.owner, NodeId.format.option?_ofOption h.target]
  case fits =>
    intro record constant h
    simp only [Option.bind_eq_bind, Option.bind_eq_some_iff, Option.pure_def, Option.some.injEq] at h
    obtain ⟨id, hi, header, _, owner, ho, target, ht, rfl⟩ := h
    exact {
      id := NodeId.format.fits_of_required? hi
      owner := NodeId.format.fits_of_required? ho
      target := NodeId.format.fits_of_optional? ht }

end Constant

-- All nodes of a graph, and what they consist of, can be written and read again. The fields of a document may be given
-- in any order or as an array, and there may be others, but what has been read from it is written in one way.
theorem documents_are_read_back :
    RoundTrips NodeRef.toJson NodeRef.ofJson? NodeRef.Fits
    ∧ RoundTrips Endpoint.toJson Endpoint.ofJson? Endpoint.Fits
    ∧ RoundTrips Location.toJson Location.ofJson? (fun _ => True)
    ∧ RoundTrips Modifiers.toJson Modifiers.ofJson? (fun _ => True)
    ∧ RoundTrips Package.toJson Package.ofJson? Package.Fits
    ∧ RoundTrips TypeDecl.toJson TypeDecl.ofJson? TypeDecl.Fits
    ∧ RoundTrips Callable.toJson Callable.ofJson? Callable.Fits
    ∧ RoundTrips Parameter.toJson Parameter.ofJson? Parameter.Fits
    ∧ RoundTrips Property.toJson Property.ofJson? Property.Fits
    ∧ RoundTrips Constant.toJson Constant.ofJson? Constant.Fits :=
  ⟨NodeRef.format.roundTrips, Endpoint.format.roundTrips, Location.format.roundTrips, Modifiers.format.roundTrips,
    Package.format.roundTrips, TypeDecl.format.roundTrips, Callable.format.roundTrips, Parameter.format.roundTrips,
    Property.format.roundTrips, Constant.format.roundTrips⟩

-- A name with quotes and control characters, the greatest id, a list with duplicates, and fields without a value.
theorem documents_are_read_back_escaped :
    let callable : Callable := {
      id := ⟨4294967295⟩, kind := .method, header := ⟨"draw\"\\\n\x01é", some ⟨"src/Shape", 7, 0⟩⟩
      owner := some ⟨3⟩, modifiers := ⟨[.static, .static]⟩, dependencies := [⟨1⟩, ⟨0⟩, ⟨1⟩] }
    callable.Fits ∧ decode? Callable.ofJson? callable.toJson.render = some callable := by
  intro callable
  have hf : callable.Fits := by
    constructor <;> simp [callable, NodeId.Fits, idBound, UInt32.size]
  obtain ⟨_, _, _, _, _, _, hc, _⟩ := documents_are_read_back
  exact ⟨hf, hc.decode?_render callable hf⟩

end PackageCoupling
