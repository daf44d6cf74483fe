import Mathlib.Order.Bounds.Basic
import ClientBindings.Proofs.Presentation.Round

/-! Which names references demand, by the declarations alone, and what a round comes to enter: the
least set of names with those that the signatures of its controllers demand and those that the content
of its members does. A round goes through references in some order and skips what has been entered
before, so that the account of a type that is still being filled is left to whoever entered it. That
the set is closed, once the round is over, and that nothing else is in it, is what `Presented` keeps of
any such order. -/
namespace ClientBindings

namespace BuildContext

open TypeGraph

variable {cx : BuildContext} {S T : String → Prop} {r : TypeRef} {rs rs' : List TypeRef}
  {o o' : Option (List Effect)} {n name : String} {t : DeclaredType} {c : String}

/-- A declared name that is not excluded, predefined, or that of a collection or a map. -/
def OwnName (cx : BuildContext) (name : String) : Prop := ∃ t, cx.Defined t ∧ t.name = name

/-- The names that a reference demands. -/
inductive Demands (cx : BuildContext) : TypeRef → String → Prop
  | primitive {name : String} (h : cx.OwnName name) : Demands cx (.primitive name) name
  | declared {name : String} {args : List TypeRef} (h : cx.OwnName name) :
      Demands cx (.declared name args) name
  | argument {name n : String} {args : List TypeRef} {a : TypeRef}
      (hkind : (cx.kindNamed? (cx.denoted name)).any (·.hasTypeParams) = true) (ha : a ∈ args)
      (h : Demands cx a n) : Demands cx (.declared name args) n
  | upper {b : TypeRef} {lower : Option TypeRef} {n : String} (h : Demands cx b n) :
      Demands cx (.wildcard (some b) lower) n
  | component {component : TypeRef} {n : String} (h : Demands cx component n) :
      Demands cx (.array component) n
  | owner {name owner : String} (h : cx.OwnName owner) : Demands cx (.typeVar name (.type owner)) owner
  | bound {name n : String} {owner : GenericOwner} {b : TypeRef}
      (hb : cx.symbols.soleBound? name owner = some b) (h : Demands cx b n) :
      Demands cx (.typeVar name owner) n

theorem mem_entries_naming : n ∈ entries (cx.naming name) ↔ cx.OwnName name ∧ n = name := by
  constructor
  · intro hn
    unfold naming at hn
    split at hn
    · cases hn
    · rename_i hkept
      split at hn
      · rename_i hdeclared
        obtain ⟨t, ht⟩ := Option.isSome_iff_exists.1 hdeclared
        obtain rfl : t.name = name := SymbolTable.type?_name ht
        simp only [Bool.or_eq_true, not_or, Bool.not_eq_true, Option.isSome_eq_false_iff,
          Option.isNone_iff_eq_none] at hkept
        obtain ⟨⟨⟨hex, hfree⟩, hc⟩, hm⟩ := hkept
        exact ⟨⟨t, ⟨⟨hex, hc, hm, ht⟩, hfree⟩, rfl⟩, List.mem_singleton.1 hn⟩
      · cases hn
  · rintro ⟨⟨t, ht, rfl⟩, rfl⟩
    rw [naming_of_defined ht]
    exact List.mem_singleton_self _

/-- What a reference enters by itself, it demands. -/
theorem demands_of_immediate {own : List Effect} (hown : cx.immediate? r = some own)
    (hn : n ∈ entries own) : cx.Demands r n := by
  cases r with
  | primitive name =>
    obtain rfl : cx.naming name = own := Option.some.inj hown
    obtain ⟨hname, rfl⟩ := mem_entries_naming.1 hn
    exact .primitive hname
  | declared name args =>
    obtain rfl : cx.naming name = own := Option.some.inj hown
    obtain ⟨hname, rfl⟩ := mem_entries_naming.1 hn
    exact .declared hname
  | typeVar name owner =>
    cases owner with
    | type owner =>
      rw [immediate?] at hown
      split at hown
      · cases hown
      · obtain rfl : cx.naming owner = own := Option.some.inj hown
        obtain ⟨howner, rfl⟩ := mem_entries_naming.1 hn
        exact .owner howner
    | method declaringType method overload =>
      -- A variable of a method is warned of at most.
      obtain ⟨p, -, rfl⟩ := Option.map_eq_some_iff.1 hown
      split at hn
      · cases hn
      · cases hn
  | wildcard upper lower =>
    obtain rfl : [] = own := Option.some.inj hown
    cases hn
  | array component =>
    obtain rfl : [] = own := Option.some.inj hown
    cases hn

/-- What the references that it leads to demand, a reference demands. -/
theorem demands_of_followed {a : TypeRef} (ha : a ∈ cx.followed r) (h : cx.Demands a n) :
    cx.Demands r n := by
  cases r with
  | primitive name => cases ha
  | declared name args =>
    rw [followed] at ha
    split at ha
    · rename_i hkind
      exact .argument hkind ha h
    · cases ha
  | typeVar name owner => exact .bound (Option.mem_toList.1 ha) h
  | wildcard upper lower =>
    obtain rfl : upper = some a := Option.mem_toList.1 ha
    exact .upper h
  | array component =>
    obtain rfl : a = component := List.mem_singleton.1 ha
    exact .component h

/-- A name is demanded by the reference itself or by one that it leads to. -/
theorem demands_iff {own : List Effect} (hown : cx.immediate? r = some own) :
    cx.Demands r n ↔ n ∈ entries own ∨ ∃ a ∈ cx.followed r, cx.Demands a n := by
  constructor
  · intro h
    cases h with
    | primitive hname =>
      obtain rfl : cx.naming n = own := Option.some.inj hown
      exact .inl (mem_entries_naming.2 ⟨hname, rfl⟩)
    | declared hname =>
      obtain rfl : cx.naming n = own := Option.some.inj hown
      exact .inl (mem_entries_naming.2 ⟨hname, rfl⟩)
    | @argument name _ args a hkind ha h =>
      have hfollowed : cx.followed (.declared name args) = args := if_pos hkind
      exact .inr ⟨a, by rwa [hfollowed], h⟩
    | @upper b lower _ h => exact .inr ⟨b, List.mem_singleton_self b, h⟩
    | @component c _ h => exact .inr ⟨c, List.mem_singleton_self c, h⟩
    | owner hname =>
      rw [immediate?] at hown
      split at hown
      · cases hown
      · obtain rfl : cx.naming n = own := Option.some.inj hown
        exact .inl (mem_entries_naming.2 ⟨hname, rfl⟩)
    | @bound name _ owner b hb h => exact .inr ⟨b, Option.mem_toList.2 hb, h⟩
  · rintro (hn | ⟨a, ha, h⟩)
    · exact demands_of_immediate hown hn
    · exact demands_of_followed ha h

/-- If there is an account, it enters just what the references demand. -/
def Enters (cx : BuildContext) (rs : List TypeRef) (o : Option (List Effect)) : Prop :=
  ∀ as, o = some as → ∀ n, n ∈ entries as ↔ ∃ r ∈ rs, cx.Demands r n

namespace Enters

theorem quiet (ds : List Diagnostic) : cx.Enters [] (some (ds.map .notes)) := by
  rintro as ⟨⟩ n
  simp

theorem none (rs : List TypeRef) : cx.Enters rs none := fun _ h => nomatch h

theorem append (h : cx.Enters rs o) (h' : cx.Enters rs' o') :
    cx.Enters (rs ++ rs') (andThen? o o') := by
  intro as has n
  obtain ⟨bs, hbs, has⟩ := Option.bind_eq_some_iff.1 has
  obtain ⟨bs', hbs', rfl⟩ := Option.map_eq_some_iff.1 has
  rw [entries_append, List.mem_append, h bs hbs n, h' bs' hbs' n]
  simp only [List.mem_append, or_and_right, exists_or]

theorem gather {α : Type} {f : α → Option (List Effect)} {k : α → List TypeRef} {xs : List α}
    (h : ∀ x ∈ xs, cx.Enters (k x) (f x)) : cx.Enters (xs.flatMap k) (gather? f xs) := by
  induction xs with
  | nil => exact quiet []
  | cons x xs ih =>
    rw [List.flatMap_cons, gather?_cons]
    exact (h x (List.mem_cons_self ..)).append (ih fun y hy => h y (List.mem_cons_of_mem _ hy))

/-- An account is within `S` just if it is there and all that is demanded is in `S`. -/
theorem good_iff (h : cx.Enters rs o) :
    Good S o ↔ (∃ as, o = some as) ∧ ∀ r ∈ rs, ∀ n, cx.Demands r n → S n := by
  constructor
  · rintro ⟨as, ho, has⟩
    exact ⟨⟨as, ho⟩, fun r hr n hn => has n ((h as ho n).2 ⟨r, hr, hn⟩)⟩
  · rintro ⟨⟨as, ho⟩, hS⟩
    refine ⟨as, ho, fun n hn => ?_⟩
    obtain ⟨r, hr, hd⟩ := (h as ho n).1 hn
    exact hS r hr n hd

end Enters

theorem enters_account (r : TypeRef) : cx.Enters [r] (cx.account? r) := by
  intro as has
  -- By induction along the account: it is there only if those of the references followed are.
  refine account?.partial_correctness cx
    (motive := fun r as => ∀ n, n ∈ entries as ↔ ∃ r' ∈ [r], cx.Demands r' n) ?_ r as has
  intro account? hrec r as hbody n
  obtain ⟨own, hown, hrest⟩ := Option.bind_eq_some_iff.1 hbody
  obtain ⟨rest, hmap, hsum⟩ := Option.bind_eq_some_iff.1 hrest
  obtain rfl : own ++ rest.flatten = as := Option.some.inj hsum
  have hfollowed : cx.Enters ((cx.followed r).flatMap fun a => [a]) (gather? account? (cx.followed r)) :=
    .gather fun a _ bs hbs => hrec a bs hbs
  rw [List.flatMap_singleton'] at hfollowed
  have hgather : gather? account? (cx.followed r) = some rest.flatten := by
    rw [gather?, hmap, Option.map_some]
  rw [entries_append, List.mem_append, hfollowed _ hgather n, ← demands_iff hown]
  simp

theorem enters_accountAll (rs : List TypeRef) : cx.Enters rs (cx.accountAll? rs) := by
  have h : cx.Enters (rs.flatMap fun r => [r]) (cx.accountAll? rs) := .gather fun r _ => enters_account r
  rwa [List.flatMap_singleton'] at h

/-- Filling the definition of a type enters what its content demands. -/
theorem enters_accountType (t : DeclaredType) : cx.Enters (cx.content t) (cx.accountType? t) :=
  enters_accountAll (cx.content t)

theorem enters_accountMapping (annotations : List Annotation) (location : String) :
    cx.Enters [] (cx.accountMapping? annotations location) := by
  rw [accountMapping?]
  cases cx.symbols.mapping? annotations location with
  | none => exact .none []
  | some mapping? => exact .quiet _

theorem enters_accountParameter (location : String) (p : Parameter) :
    cx.Enters (cx.symbols.boundTypes p) (cx.accountParameter? location p) := by
  rw [SymbolTable.boundTypes, accountParameter?]
  cases hb : cx.symbols.bindingsOf p with
  | nil => exact .quiet []
  | cons marker others => exact (Enters.quiet _).append (enters_account p.type)

theorem enters_accountMethod (controller : String) (m : Method) :
    cx.Enters (cx.symbols.signature m) (cx.accountMethod? controller m) := by
  rw [SymbolTable.signature, accountMethod?]
  cases hm : cx.symbols.mapping? m.annotations ("endpoint:" ++ controller ++ "#" ++ m.name) with
  | none =>
    rw [accountMapping?, hm]
    exact .none _
  | some mapping? =>
    rw [SymbolTable.isSome_of_mapping? hm]
    refine (enters_accountMapping m.annotations _).append ?_
    cases mapping? with
    | none => exact .quiet []
    | some mapping =>
      exact (Enters.gather fun p _ => enters_accountParameter _ p).append (enters_accountAll _)

/-- Building the endpoint of a controller enters what its signatures demand. -/
theorem enters_accountEndpoint (ht : cx.symbols.type? c = some t) :
    cx.Enters (cx.symbols.signatures t) (cx.accountEndpoint? c) := by
  rw [accountEndpoint?, ht]
  exact (enters_accountMapping t.annotations _).append
    (.gather fun m _ => enters_accountMethod t.name m)

/-- A set of names that has what the signatures of the controllers demand, and what each of its own
members that is an interface does: by the bounds of its parameters, by the types of the properties that
win, and by its superclass and its interfaces, but for the root of the hierarchy. -/
structure Meets (cx : BuildContext) (controllers : List String) (S : Set String) : Prop where
  signatures {c n : String} {t : DeclaredType} {r : TypeRef} : c ∈ controllers →
    cx.symbols.type? c = some t → cx.symbols.isMarked t.annotations Marker.endpoint = true →
    r ∈ cx.symbols.signatures t → cx.Demands r n → n ∈ S
  bounds {m n : String} {t : DeclaredType} {p : TypeParameter} {r : TypeRef} : m ∈ S →
    cx.symbols.type? m = some t → kindOf t.kind = .interfaceType → p ∈ t.typeParameters →
    r ∈ p.bounds → cx.Demands r n → n ∈ S
  properties {m n : String} {t : DeclaredType} {c : String × PropertyCandidate} : m ∈ S →
    cx.symbols.type? m = some t → kindOf t.kind = .interfaceType →
    c ∈ cx.symbols.winners cx.pipeline t → cx.Demands c.2.type n → n ∈ S
  supertypes {m n : String} {t : DeclaredType} {r : TypeRef} : m ∈ S → cx.symbols.type? m = some t →
    kindOf t.kind = .interfaceType → r ∈ t.superclass.toList ++ t.interfaces →
    (∀ args, r ≠ .declared "java.lang.Object" args) → r ≠ .primitive "java.lang.Object" →
    cx.Demands r n → n ∈ S

/-- What the content of a member demands. -/
theorem Meets.content {controllers : List String} {U : Set String} (hU : cx.Meets controllers U)
    {m : String} (hm : m ∈ U) (ht : cx.symbols.type? m = some t) (hr : r ∈ cx.content t)
    (hd : cx.Demands r n) : n ∈ U := by
  by_cases hkind : kindOf t.kind = .interfaceType
  · rw [content_interface hkind, List.mem_append, List.mem_append] at hr
    rcases hr with hr | hr | hr
    · obtain ⟨p, hp, hr⟩ := List.mem_flatMap.1 hr
      exact hU.bounds hm ht hkind hp hr hd
    · obtain ⟨c, hc, rfl⟩ := List.mem_map.1 hr
      exact hU.properties hm ht hkind hc hd
    · obtain ⟨hr, hdeclared, hprimitive⟩ := DeclaredType.mem_parents.1 hr
      exact hU.supertypes hm ht hkind hr hdeclared hprimitive hd
  · rw [content_plain hkind] at hr
    cases hr

/-- The name of a type of its own is that of a declaration. -/
theorem Identified.defined_of_own {g : TypeGraph} (hg : cx.Identified g) (hn : n ∈ cx.ownNames g) :
    cx.OwnName n := by
  obtain ⟨hname, hfree, id, hid⟩ := (mem_ownNames hg.toWellFormed).1 hn
  rcases hg.predefined_or_defined hname hid with hp | hdefined
  · rw [hfree] at hp
    cases hp
  · exact hdefined

namespace Presented

variable {seen : List String} {w : Workspace}

/-- The content of a type that was entered demands only such. -/
theorem content_mem (h : cx.Presented seen w) {m : String} (hm : m ∈ cx.ownNames w.graph)
    (ht : cx.symbols.type? m = some t) (hr : r ∈ cx.content t) (hd : cx.Demands r n) :
    n ∈ cx.ownNames w.graph := by
  obtain ⟨t', hdefined, rfl⟩ := h.whole.defined_of_own hm
  obtain rfl : t' = t := Option.some.inj (hdefined.1.2.2.2.symm.trans ht)
  exact ((enters_accountType t').good_iff.1 (h.accountable t' hdefined hm)).2 r hr n hd

/-- The types that were entered have all that is demanded. -/
theorem meets (h : cx.Presented seen w) : cx.Meets seen {n | n ∈ cx.ownNames w.graph} where
  signatures {c n t r} hc ht hmarked hr hd := by
    obtain ⟨marker, hm⟩ := Option.isSome_iff_exists.1 hmarked
    have hgood := (h.welcome hc).2 ⟨t, marker, ht, hm⟩
    exact ((enters_accountEndpoint ht).good_iff.1 hgood).2 r hr n hd
  bounds hm ht hkind hp hr hd := h.content_mem hm ht (content_interface hkind ▸
    List.mem_append_left _ (List.mem_flatMap.2 ⟨_, hp, hr⟩)) hd
  properties hm ht hkind hc hd := h.content_mem hm ht (content_interface hkind ▸
    List.mem_append_right _ (List.mem_append_left _ (List.mem_map_of_mem hc))) hd
  supertypes hm ht hkind hr hdeclared hprimitive hd := h.content_mem hm ht (content_interface hkind ▸
    List.mem_append_right _ (List.mem_append_right _
      (DeclaredType.mem_parents.2 ⟨hr, hdeclared, hprimitive⟩))) hd

/-- They are in every set that has it. -/
theorem subset_of_meets (h : cx.Presented seen w) {S : Set String} (hS : cx.Meets seen S)
    (hn : n ∈ cx.ownNames w.graph) : n ∈ S := by
  -- `S` may have names whose content is not accounted for, so it is cut down to those entered.
  refine (h.within (S := fun n => n ∈ cx.ownNames w.graph ∧ n ∈ S) ?_ ?_ n hn).2
  · rintro t ht ⟨hmem, hin⟩
    obtain ⟨haccount, hd⟩ := (enters_accountType t).good_iff.1 (h.accountable t ht hmem)
    refine (enters_accountType t).good_iff.2 ⟨haccount, fun r hr n hn => ⟨hd r hr n hn, ?_⟩⟩
    exact hS.content hin ht.1.2.2.2 hr hn
  · intro c hc
    obtain ⟨hknown, hwelcome⟩ := h.welcome hc
    refine ⟨hknown, fun hmarked => ?_⟩
    have hgood := hwelcome hmarked
    obtain ⟨t, marker, ht, hm⟩ := hmarked
    obtain ⟨haccount, hd⟩ := (enters_accountEndpoint ht).good_iff.1 hgood
    refine (enters_accountEndpoint ht).good_iff.2 ⟨haccount, fun r hr n hn => ⟨hd r hr n hn, ?_⟩⟩
    exact hS.signatures hc ht (by rw [SymbolTable.isMarked, hm]; rfl) hr hn

end Presented

/-- The names of types of their own are those of the definitions that are not predefined and no
placeholders. -/
theorem Whole.mem_ownNames_iff {g : TypeGraph} (hg : cx.Whole g) : n ∈ cx.ownNames g ↔
    ∃ d ∈ g.definitions, d.predefined = false ∧ d.kind ≠ .genericPlaceholder ∧ d.fullName = n := by
  rw [mem_ownNames hg.toWellFormed]
  constructor
  · rintro ⟨hname, hfree, id, hid⟩
    obtain ⟨d, hd, rfl⟩ := hg.indexed hid
    refine ⟨d, List.mem_of_find?_eq_some hd, ?_⟩
    cases hg.sound.entry hd with
    | predefined _ hp _ =>
      rw [hfree] at hp
      cases hp
    | placeholder _ hd' _ _ _ => exact absurd (hd' ▸ hname) (not_unreserved_placeholderName _ _)
    | declared _ _ _ hkind hnew _ => exact ⟨hnew, hkind ▸ kindOf_ne_placeholder _, rfl⟩
  · rintro ⟨d, hmem, hnew, hkind, rfl⟩
    have hd := hg.listed hmem
    obtain ⟨hname, -, -, hfree, -, -⟩ := (hg.sound.entry hd).declared_of hnew hkind
    exact ⟨hname, hfree, d.id, hg.named hd⟩

end BuildContext

namespace Processor

open BuildContext TypeGraph

variable {p q : Processor} {symbols : SymbolTable} {settings : Settings} {report : RoundReport}

/-- For an export and settings with the sign of placeholders in none of their names: after a round
that succeeds on a processor that has been reset, the definitions that are not predefined and no
placeholders have for names the least set with all that is demanded, by the signatures of the
controllers of the round and by the content of the members. -/
theorem reset_round_reaches (hs : symbols.Tidy) (hn : settings.Unreserved)
    (ho : p.reset.processRound symbols settings = (.ok report, q)) :
    ∃ exclusions, settings.exclusions = .ok exclusions ∧
      IsLeast {S | (BuildContext.mk symbols settings exclusions p.pipeline).Meets
          (controllerNames symbols) S}
        {n | ∃ d ∈ q.graph.definitions,
          d.predefined = false ∧ d.kind ≠ .genericPlaceholder ∧ d.fullName = n} := by
  obtain ⟨exclusions, hx⟩ := exists_exclusions ho
  refine ⟨exclusions, hx, ?_⟩
  let cx : BuildContext := ⟨symbols, settings, exclusions, p.pipeline⟩
  have hnew : p.reset.Presents cx [] := presents_reset hn rfl
  rcases hnew.processControllers hs hx (controllerNames symbols) with
    ⟨report', q', ho', hq, hseeded, -⟩ | ⟨f, q', ho', -⟩
  · obtain rfl : q = q' := congrArg Prod.snd (ho.symm.trans ho')
    have hmodel := hq.model
    rw [seed_of_seeded hseeded, List.nil_append] at hmodel
    have hown : {n | ∃ d ∈ q.graph.definitions,
        d.predefined = false ∧ d.kind ≠ .genericPlaceholder ∧ d.fullName = n} =
        {n | n ∈ cx.ownNames q.graph} := Set.ext fun n => hmodel.whole.mem_ownNames_iff.symm
    rw [hown]
    exact ⟨hmodel.meets, fun S hS n hn => hmodel.subset_of_meets hS hn⟩
  · exact absurd (congrArg Prod.fst (ho.symm.trans ho')) nofun

/-- Beside the record, the class and their interface, a record that a controller returns by a method that it
inherits. Its parameter is bounded, its component is an array, and the argument is a wildcard. -/
def shelfSymbols : SymbolTable where
  types := nodeContext.symbols.types ++ [
    ⟨"a.Shelf", none, none, none, .recordType, [], [], [⟨"T", [.declared "a.Thing" []]⟩], none, [], [], [],
      [⟨"owners", .array (.declared "a.Owner" []), []⟩], []⟩,
    ⟨"a.Thing", none, none, none, .interfaceType, [], [], [], none, [], [], [], [], []⟩,
    ⟨"a.Owner", none, none, none, .recordType, [], [], [], none, [], [], [], [], []⟩,
    ⟨"a.Book", none, none, none, .recordType, [], [], [], none, [], [], [], [], []⟩,
    ⟨"a.BaseApi", none, none, none, .classType, [], [], [], none, [], [],
      [⟨"shelf", [], [.written Marker.requestMapping []], [], [],
        some (.declared "a.Shelf" [.wildcard (some (.declared "a.Book" [])) none])⟩], [], []⟩,
    ⟨"a.ShelfApi", none, none, none, .classType, [], [.written Marker.endpoint []], [],
      some (.declared "a.BaseApi" []), [], [], [], [], []⟩]
  annotationTypes := []

/-- Two controllers, of which one returns a record and is sent a class, and the other inherits what it
returns. The interface of the record is entered, and the superclass of the class; the bound, the type of the
component and the argument of the other record are. What is neither returned nor bound is not, nor are the
root of the hierarchy and the controllers. -/
theorem reset_round_reaches_node :
    ∃ report q, initial.reset.processRound shelfSymbols .standard = (.ok report, q) ∧
      (∃ exclusions, Settings.standard.exclusions = .ok exclusions ∧
        IsLeast {S | (BuildContext.mk shelfSymbols .standard exclusions .standard).Meets
            (controllerNames shelfSymbols) S}
          {n | ∃ d ∈ q.graph.definitions,
            d.predefined = false ∧ d.kind ≠ .genericPlaceholder ∧ d.fullName = n}) ∧
      (q.graph.definitions.filter fun d => !d.predefined && d.kind != .genericPlaceholder).map
        (·.fullName) = ["a.Leaf", "a.Node", "a.Branch", "a.Base", "a.Shelf", "a.Thing", "a.Owner",
          "a.Book"] := by
  have hs : shelfSymbols.Tidy := by decide +kernel
  have hn : Settings.standard.Unreserved := by decide +kernel
  have hrun : (initial.reset.processRound shelfSymbols .standard).1.isOk = true ∧
      ((initial.reset.processRound shelfSymbols .standard).2.graph.definitions.filter fun d =>
        !d.predefined && d.kind != .genericPlaceholder).map (·.fullName) =
          ["a.Leaf", "a.Node", "a.Branch", "a.Base", "a.Shelf", "a.Thing", "a.Owner", "a.Book"] := by
    decide +kernel
  obtain ⟨hok, hnames⟩ := hrun
  obtain ⟨report, q, ho⟩ := exists_ok_of_isOk hok
  rw [ho] at hnames
  exact ⟨report, q, ho, reset_round_reaches hs hn ho, hnames⟩

end Processor

end ClientBindings
