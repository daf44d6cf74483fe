import Mathlib.Data.List.Nodup
import Mathlib.Data.List.Perm.Subperm
import ClientBindings.Graph.Placement
import ClientBindings.Model.Encoding
import ClientBindings.Proofs.Resolution.References

/-! Where a declared type is placed. The links to enclosing types are followed outwards from the type, each
name once, until there is no link, or it goes to a name that was met before or is not declared. The names that
were met are the enclosing types of the place, and where the walk ends decides on the package. -/
namespace ClientBindings

namespace SymbolTable

variable {s : SymbolTable} {t outer last last' : DeclaredType} {name : String}
  {names names' before : List String} {unknown unknown' : Option String} {types unseen : List DeclaredType}

/-- Following the links from a type goes by these names and comes to the type of the last of them. -/
inductive LeadsOut (s : SymbolTable) : DeclaredType → List String → DeclaredType → Prop
  | here (t : DeclaredType) : LeadsOut s t [] t
  | out {t outer last : DeclaredType} {name : String} {names : List String}
      (hlink : t.enclosingType = some name) (htype : s.type? name = some outer)
      (hrest : LeadsOut s outer names last) : LeadsOut s t (name :: names) last

/-- Why following the links comes to an end with a type when these names have been met, and the name that is
not declared if there is one. -/
inductive BreaksOff (s : SymbolTable) (last : DeclaredType) (met : List String) : Option String → Prop
  | absent (hlink : last.enclosingType = none) : BreaksOff s last met none
  | again {name : String} (hlink : last.enclosingType = some name) (hmet : name ∈ met) :
      BreaksOff s last met none
  | unknown {name : String} (hlink : last.enclosingType = some name) (htype : s.type? name = none) :
      BreaksOff s last met (some name)

/-- The names that a walk along the links meets, innermost first, the last type that it reaches, and the name
after these that is not declared, if it ends with one. -/
structure Trail where
  names : List String
  last : DeclaredType
  unknown : Option String

/-- The walk from a type along its links, as far as it goes without meeting a name twice. -/
structure Follows (s : SymbolTable) (t : DeclaredType) (trail : Trail) : Prop where
  leads : s.LeadsOut t trail.names trail.last
  nodup : trail.names.Nodup
  ends : s.BreaksOff trail.last trail.names trail.unknown

/-- Every name that the walk meets, that of the end included. -/
def Trail.met (trail : Trail) : List String := trail.names ++ trail.unknown.toList

theorem LeadsOut.isSome (h : s.LeadsOut t names last) : ∀ n ∈ names, (s.type? n).isSome = true := by
  induction h with
  | here => exact fun n hn => nomatch hn
  | out _ htype _ ih =>
    intro n hn
    rcases List.mem_cons.1 hn with rfl | hn
    · rw [htype]
      rfl
    · exact ih n hn

/-- Only a link to a name that is not declared gives a walk such an end. -/
theorem BreaksOff.unknown_eq (h : s.BreaksOff last before unknown)
    (hmet : ∀ n ∈ before, (s.type? n).isSome = true) :
    unknown = last.enclosingType.filter fun n => (s.type? n).isNone := by
  cases h with
  | absent hlink => rw [hlink, Option.filter_none]
  | again hlink hname =>
    obtain ⟨t, ht⟩ := Option.isSome_iff_exists.1 (hmet _ hname)
    rw [hlink, Option.filter_some, ht]
    rfl
  | unknown hlink htype =>
    rw [hlink, Option.filter_some, htype]
    rfl

/-- A walk that ends with a type has met what that links to, if it is declared. -/
theorem BreaksOff.mem_met (h : s.BreaksOff last before unknown) (hlink : last.enclosingType = some name)
    (htype : s.type? name = some outer) : name ∈ before := by
  cases h with
  | absent hlink' => rw [hlink] at hlink'; cases hlink'
  | again hlink' hname =>
    rw [hlink] at hlink'
    exact Option.some.inj hlink' ▸ hname
  | unknown hlink' htype' =>
    rw [hlink] at hlink'
    rw [← Option.some.inj hlink', htype] at htype'
    cases htype'

/-- After the same names, walks along the same links end in the same way. -/
theorem LeadsOut.unique (h : s.LeadsOut t names last) (h' : s.LeadsOut t names' last')
    (hmet : ∀ n ∈ before, (s.type? n).isSome = true)
    (hnodup : (before ++ names).Nodup) (hnodup' : (before ++ names').Nodup)
    (hends : s.BreaksOff last (before ++ names) unknown)
    (hends' : s.BreaksOff last' (before ++ names') unknown') :
    names = names' ∧ last = last' ∧ unknown = unknown' := by
  induction h generalizing before names' with
  | here t =>
    rw [List.append_nil] at hends
    cases h' with
    | here =>
      rw [List.append_nil] at hends'
      exact ⟨rfl, rfl, (hends.unknown_eq hmet).trans (hends'.unknown_eq hmet).symm⟩
    | out hlink htype _ =>
      -- the first walk ends here only if the name to which the other goes on has been met
      exact (List.disjoint_of_nodup_append hnodup' (hends.mem_met hlink htype)
        (List.mem_cons_self ..)).elim
  | @out t outer last name names hlink htype _ ih =>
    cases h' with
    | here =>
      rw [List.append_nil] at hends'
      exact (List.disjoint_of_nodup_append hnodup (hends'.mem_met hlink htype)
        (List.mem_cons_self ..)).elim
    | @out _ outer' _ name' names' hlink' htype' hrest' =>
      rw [hlink] at hlink'
      obtain rfl : name = name' := Option.some.inj hlink'
      rw [htype] at htype'
      obtain rfl : outer = outer' := Option.some.inj htype'
      rw [List.append_cons] at hnodup hnodup' hends hends'
      have hmet' : ∀ n ∈ before ++ [name], (s.type? n).isSome = true := by
        intro n hn
        rcases List.mem_append.1 hn with hn | hn
        · exact hmet n hn
        · rw [List.mem_singleton.1 hn, htype]
          rfl
      obtain ⟨rfl, rfl, rfl⟩ := ih hrest' hmet' hnodup hnodup' hends hends'
      exact ⟨rfl, rfl, rfl⟩

theorem Follows.unique {trail trail' : Trail} (h : s.Follows t trail) (h' : s.Follows t trail') :
    trail = trail' := by
  obtain ⟨names, last, unknown⟩ := trail
  obtain ⟨names', last', unknown'⟩ := trail'
  have hmet : ∀ n ∈ ([] : List String), (s.type? n).isSome = true := fun _ hn => nomatch hn
  obtain ⟨rfl, rfl, rfl⟩ : names = names' ∧ last = last' ∧ unknown = unknown' :=
    h.leads.unique h'.leads hmet h.nodup h'.nodup h.ends h'.ends
  rfl

end SymbolTable

/-- The scopes around a declaration, from the innermost one outwards: enclosing types, and in the end a
package. -/
inductive Scope where
  | package (name : String)
  | inside (enclosing : EnclosingType) (outer : Scope)

namespace Scope

def packageName : Scope → String
  | package name => name
  | inside _ outer => outer.packageName

/-- The names of the enclosing types, outermost first. -/
def enclosingTypes : Scope → List String
  | package _ => []
  | inside enclosing outer => outer.enclosingTypes ++ [enclosing.shortName]

def document : Scope → Document
  | package name => .map [("package_element", .bool true), ("full_name", .text name),
      ("short_name", .text (Text.afterLast (· == '.') name))]
  | inside enclosing outer => .map [("package_element", .bool false), ("full_name", .text enclosing.fullName),
      ("short_name", .text enclosing.shortName), ("container", outer.document)]

/-- Enclosing types around a scope, the outermost given first. -/
def within (scope : Scope) (enclosing : List EnclosingType) : Scope :=
  enclosing.foldl (fun outer e => inside e outer) scope

end Scope

namespace SymbolTable

end SymbolTable

end ClientBindings
