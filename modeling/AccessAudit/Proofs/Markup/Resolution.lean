import AccessAudit.Markup.Elements
import Mathlib.Data.List.Induction
import Mathlib.Data.List.Nodup

/-!
# Resolved attributes

The attributes of a tag are added one after the other, so that for every name the last attribute of
that name remains.  Its value is what stands in the braces behind any number of parentheses, where
comments do not count.  `Tree.Sets` says which name and which value an attribute has.
-/

namespace AccessAudit.Markup

/-! ### Values in braces -/

/-- The first of some trees that is no comment. -/
def FirstPart (ts : List Tree) (t : Tree) : Prop :=
  ∃ before after, ts = before ++ t :: after ∧ (∀ c ∈ before, c.kind = .comment)
    ∧ t.kind ≠ .comment

/-- What stands in braces behind a number of parentheses, or nothing if there are only comments. -/
inductive InParentheses : Nat → List Tree → Option Tree → Prop where
  | empty {ts : List Tree} (comments : ∀ t ∈ ts, t.kind = .comment) : InParentheses 0 ts none
  | bare {ts : List Tree} {core : Tree} (first : FirstPart ts core)
    (kind : core.kind ≠ .parenthesized) : InParentheses 0 ts (some core)
  | layer {n : Nat} {ts : List Tree} {t : Tree} {o : Option Tree} (first : FirstPart ts t)
    (kind : t.kind = .parenthesized) (inside : InParentheses n t.children o) :
    InParentheses (n + 1) ts o

/-- The value that an expression spells. -/
inductive Tree.Spells (t : Tree) : Value → Prop where
  | string (kind : t.kind = .string) : Spells t (.string (unquote t.text))
  | true (kind : t.kind = .true) : Spells t (.boolean .true)
  | false (kind : t.kind = .false) : Spells t (.boolean .false)
  | number {x : Float} (kind : t.kind = .number) (value : numberValue? t.text = some x) :
    Spells t (.number x)
  | noNumber (kind : t.kind = .number) (value : numberValue? t.text = none) : Spells t .expression
  | other (kind : t.kind ∉ [Kind.string, .true, .false, .number]) : Spells t .expression

/-- The value of what stands after the equality sign of an attribute. -/
inductive Tree.Resolves (t : Tree) : Value → Prop where
  | string (kind : t.kind = .string) : Resolves t (.string (unquote t.text))
  | empty {n : Nat} (kind : t.kind = .container) (inside : InParentheses n t.children none) :
    Resolves t .expression
  | braces {n : Nat} {core : Tree} {v : Value} (kind : t.kind = .container)
    (inside : InParentheses n t.children (some core)) (spells : core.Spells v) : Resolves t v
  | other (kind : t.kind ∉ [Kind.string, .container]) : Resolves t .none

/-- The name and the value of an attribute. -/
inductive Tree.Sets (t : Tree) : String → Value → Prop where
  | bare {name : Tree} (kind : t.kind = .attribute) (parts : t.parts = [name]) :
    Sets t name.text (.boolean true)
  | valued {name value : Tree} {rest : List Tree} {v : Value} (kind : t.kind = .attribute)
    (parts : t.parts = name :: value :: rest) (resolves : value.Resolves v) : Sets t name.text v

/-- A container with a spread in it. -/
def Tree.Spreads (t : Tree) : Prop :=
  t.kind = .container ∧ ∃ c ∈ t.children, c.kind = .spread

/-- Comments before the content are skipped. -/
theorem content?_append {before : List Tree} (h : ∀ c ∈ before, c.kind = .comment)
    (ts : List Tree) :
  content? (before ++ ts) = content? ts
  := by
  induction before with
  | nil => rfl
  | cons c before ih =>
    rw [List.cons_append, content?, if_pos (h c List.mem_cons_self)]
    exact ih fun d hd => h d (List.mem_cons_of_mem c hd)

namespace InParentheses

variable {n : Nat} {ts : List Tree} {o : Option Tree}

/-- What stands in braces is their content, behind however many parentheses. -/
theorem content?_eq (h : InParentheses n ts o) :
  content? ts = o
  := by
  induction h with
  | @empty ts comments => rw [← List.append_nil ts, content?_append comments, content?]
  | bare first kind =>
    obtain ⟨before, after, rfl, hbefore, hcomment⟩ := first
    rw [content?_append hbefore, content?, if_neg hcomment, if_neg kind]
  | layer first kind _ ih =>
    obtain ⟨before, after, rfl, hbefore, hcomment⟩ := first
    rw [content?_append hbefore, content?, if_neg hcomment, if_pos kind, ih]

/-- A comment before everything else does not count. -/
theorem cons {t : Tree} (kind : t.kind = .comment) (h : InParentheses n ts o) :
  InParentheses n (t :: ts) o
  := by
  have hfirst : ∀ u, FirstPart ts u → FirstPart (t :: ts) u := by
    rintro u ⟨before, after, rfl, hbefore, hcomment⟩
    exact ⟨t :: before, after, rfl, List.forall_mem_cons.mpr ⟨kind, hbefore⟩, hcomment⟩
  cases h with
  | empty comments => exact .empty (List.forall_mem_cons.mpr ⟨kind, comments⟩)
  | bare first hcore => exact .bare (hfirst _ first) hcore
  | layer first hlayer inside => exact .layer (hfirst _ first) hlayer inside

end InParentheses

/-- The content of braces is what stands in them behind some number of parentheses. -/
theorem exists_inParentheses (ts : List Tree) :
  ∃ n, InParentheses n ts (content? ts)
  := by
  fun_induction content? ts with
  | case1 => exact ⟨0, .empty nofun⟩
  | case2 t rest hcomment ih =>
    obtain ⟨n, h⟩ := ih
    exact ⟨n, h.cons hcomment⟩
  | case3 t rest hcomment hlayer ih =>
    obtain ⟨n, h⟩ := ih
    exact ⟨n + 1, .layer ⟨[], rest, rfl, nofun, hcomment⟩ hlayer h⟩
  | case4 t rest hcomment hlayer => exact ⟨0, .bare ⟨[], rest, rfl, nofun, hcomment⟩ hlayer⟩

namespace Tree

variable {t : Tree} {k : String} {v : Value}

/-- An expression spells the value that it has as a literal. -/
theorem spells_iff :
  t.Spells v ↔ Value.ofLiteral t = v
  := by
  constructor
  · intro h
    cases h with
    | string kind | true kind | false kind => simp [Value.ofLiteral, kind]
    | number kind value | noNumber kind value => simp [Value.ofLiteral, kind, value]
    | other kind =>
      simp only [List.mem_cons, List.not_mem_nil, or_false, not_or] at kind
      unfold Value.ofLiteral
      split <;> simp_all
  · rintro rfl
    unfold Value.ofLiteral
    split
    · exact .string ‹_›
    · exact .true ‹_›
    · exact .false ‹_›
    · cases hvalue : numberValue? t.text with
      | none => exact .noNumber ‹_› hvalue
      | some x => exact .number ‹_› hvalue
    · rename_i hstring htrue hfalse hnumber
      exact .other (by simpa using ⟨hstring, htrue, hfalse, hnumber⟩)

/-- What stands after the equality sign has the value that it is resolved to. -/
theorem resolves_iff :
  t.Resolves v ↔ Value.ofTree t = v
  := by
  constructor
  · intro h
    cases h with
    | string kind => simp [Value.ofTree, kind]
    | empty kind inside => simp [Value.ofTree, Value.ofBraces, kind, inside.content?_eq]
    | braces kind inside spells =>
      simp [Value.ofTree, Value.ofBraces, kind, inside.content?_eq, spells_iff.mp spells]
    | other kind =>
      simp only [List.mem_cons, List.not_mem_nil, or_false, not_or] at kind
      unfold Value.ofTree
      split <;> simp_all
  · rintro rfl
    unfold Value.ofTree
    split
    · exact .string ‹_›
    · obtain ⟨n, hinside⟩ := exists_inParentheses t.children
      rw [Value.ofBraces]
      cases hcontent : content? t.children with
      | none => exact .empty ‹_› (hcontent ▸ hinside)
      | some core => exact .braces ‹_› (hcontent ▸ hinside) (spells_iff.mpr rfl)
    · rename_i hstring hcontainer
      exact .other (by simpa using ⟨hstring, hcontainer⟩)

/-- An attribute sets what is read from it. -/
theorem sets_iff :
  t.Sets k v ↔ t.kind = .attribute ∧ attribute? t = some (k, v)
  := by
  constructor
  · rintro (⟨kind, parts⟩ | ⟨kind, parts, resolves⟩)
    · simp [attribute?, kind, parts]
    · simp [attribute?, kind, parts, resolves_iff.mp resolves]
  · rintro ⟨kind, h⟩
    unfold attribute? at h
    split at h
    · cases h
    · cases h
      exact .bare kind ‹_›
    · cases h
      exact .valued kind ‹_› (resolves_iff.mpr rfl)

end Tree

/-! ### Adding attributes -/

namespace Attributes

variable {m : Attributes} {name key : String} {value : Value}

/-- Entries of one name are taken out. -/
theorem lookup_filter :
  List.lookup key (m.filter fun entry => entry.1 != name)
    = if key = name then none else List.lookup key m
  := by
  induction m with
  | nil => simp
  | cons entry m ih =>
    obtain ⟨other, value⟩ := entry
    by_cases hother : other = name
    · rw [List.filter_cons_of_neg (by simpa using hother), ih, List.lookup_cons]
      by_cases hkey : key = name
      · rw [if_pos hkey, if_pos hkey]
      · rw [if_neg hkey, if_neg hkey]
        have : (key == other) = false := by simp [hother, hkey]
        rw [this]
    · rw [List.filter_cons_of_pos (by simpa using hother), List.lookup_cons, List.lookup_cons, ih]
      by_cases hkey : key = other
      · simp [hkey, hother]
      · have : (key == other) = false := by simp [hkey]
        rw [this]

/-- An attribute that was set has its value, and all others keep theirs. -/
theorem get?_insert :
  (m.insert name value).get? key = if key = name then some value else m.get? key
  := by
  rw [insert, get?, List.lookup_append, lookup_filter]
  by_cases hkey : key = name
  · simp [hkey]
  · have hne : (key == name) = false := by simp [hkey]
    simp [hkey, hne, List.lookup_cons, get?]

/-- Every name is there once. -/
theorem nodup_insert (h : (m.map Prod.fst).Nodup) :
  ((m.insert name value).map Prod.fst).Nodup
  := by
  rw [insert, List.map_append, List.nodup_append]
  refine ⟨h.sublist (List.filter_sublist.map Prod.fst), List.nodup_singleton _, ?_⟩
  intro a ha b hb
  obtain ⟨entry, hentry, rfl⟩ := List.mem_map.mp ha
  cases List.mem_singleton.mp hb
  simpa using (List.mem_filter.mp hentry).2

theorem mem_keys_iff :
  key ∈ m.map Prod.fst ↔ m.get? key ≠ none
  := by
  rw [get?, ne_eq, List.lookup_eq_none_iff]
  simp

end Attributes

/-- What a child of a tag says about attributes: the name and the value that it sets. -/
def written? (t : Tree) : Option (String × Value) :=
  match t.kind with
  | .attribute => attribute? t
  | .container => if isSpread t then some (spreadName, .boolean true) else none
  | _ => none

theorem addAttribute_eq (m : Attributes) (t : Tree) :
  addAttribute m t = (written? t).elim m fun (name, value) => m.insert name value
  := by
  unfold addAttribute written?
  cases t.kind with
  | container => cases isSpread t <;> rfl
  | _ => rfl

/-- A child of a tag says something if it is an attribute, or a container with a spread. -/
theorem written?_eq_some_iff {t : Tree} {k : String} {v : Value} :
  written? t = some (k, v) ↔ t.Sets k v ∨ t.Spreads ∧ k = spreadName ∧ v = .boolean true
  := by
  have hspread : isSpread t = true ↔ ∃ c ∈ t.children, c.kind = .spread := by simp [isSpread]
  rw [Tree.sets_iff, Tree.Spreads, ← hspread, written?]
  cases t.kind with
  | «attribute» => simp
  | container => cases isSpread t <;> simp [eq_comm]
  | _ => simp

/-! ### The last attribute of a name -/

/-- The last of some things to which a relation gives a value, with that value. -/
def LastGives {α β : Type} (R : α → β → Prop) (xs : List α) (y : β) : Prop :=
  ∃ before x after, xs = before ++ x :: after ∧ R x y ∧ ∀ z ∈ after, ∀ w, ¬ R z w

section

variable {α β : Type} {R : α → β → Prop} {xs : List α} {x : α} {y : β}

/-- The last of some things and one more is that one, if it has a value. -/
theorem lastGives_concat_iff :
  LastGives R (xs ++ [x]) y ↔ R x y ∨ (∀ w, ¬ R x w) ∧ LastGives R xs y
  := by
  constructor
  · rintro ⟨before, z, after, heq, hz, hafter⟩
    -- Either nothing follows the last one, and it is the one at the end, or the end comes after it.
    rcases List.eq_nil_or_concat' after with rfl | ⟨after, last, rfl⟩
    · obtain ⟨-, hlast⟩ := List.append_inj' heq rfl
      cases hlast
      exact .inl hz
    · rw [← List.cons_append, ← List.append_assoc] at heq
      obtain ⟨hxs, hlast⟩ := List.append_inj' heq rfl
      cases hlast
      refine .inr ⟨hafter x (by simp), before, z, after, hxs, hz, ?_⟩
      intro u hu
      apply hafter u (List.mem_append_left _ hu)
  · rintro (hx | ⟨hnone, before, z, after, rfl, hz, hafter⟩)
    · exact ⟨xs, x, [], rfl, hx, nofun⟩
    · refine ⟨before, z, after ++ [x], by simp, hz, ?_⟩
      intro u hu
      rcases List.mem_append.mp hu with hu | hu
      · apply hafter u hu
      · cases List.mem_singleton.mp hu
        apply hnone

/-- Some thing is the last one with a value if any has one. -/
theorem exists_lastGives_iff :
  (∃ y, LastGives R xs y) ↔ ∃ x ∈ xs, ∃ y, R x y
  := by
  constructor
  · rintro ⟨y, before, x, after, rfl, hx, -⟩
    exact ⟨x, by simp, y, hx⟩
  · rintro ⟨x, hx, y, hy⟩
    induction xs using List.reverseRecOn with
    | nil => cases hx
    | append_singleton xs z ih =>
      by_cases hz : ∃ w, R z w
      · obtain ⟨w, hw⟩ := hz
        exact ⟨w, lastGives_concat_iff.mpr (.inl hw)⟩
      · rw [not_exists] at hz
        rcases List.mem_append.mp hx with hx | hx
        · obtain ⟨w, hw⟩ := ih hx
          exact ⟨w, lastGives_concat_iff.mpr (.inr ⟨hz, hw⟩)⟩
        · cases List.mem_singleton.mp hx
          exact absurd hy (hz y)

end

/-! ### Attributes of a tag -/

/-- A child of a tag that says nothing about an attribute leaves it as it was. -/
theorem get?_addAttribute {m : Attributes} {t : Tree} {k : String} {v : Value} :
  (addAttribute m t).get? k = some v
    ↔ written? t = some (k, v) ∨ (∀ w, written? t ≠ some (k, w)) ∧ m.get? k = some v
  := by
  rw [addAttribute_eq]
  cases written? t with
  | none => simp
  | some entry =>
    obtain ⟨name, value⟩ := entry
    rw [Option.elim_some, Attributes.get?_insert]
    by_cases hk : k = name
    · simp [hk]
    · simp [hk, Ne.symm hk]

/-- An attribute of a tag has the value that the last child with something to say about it gives. -/
theorem get?_tagAttributes {ts : List Tree} {k : String} {v : Value} :
  (ts.foldl addAttribute []).get? k = some v
    ↔ LastGives (fun t v => written? t = some (k, v)) ts v
  := by
  induction ts using List.reverseRecOn generalizing v with
  | nil => simp [LastGives, Attributes.get?]
  | append_singleton ts t ih =>
    rw [List.foldl_append, List.foldl_cons, List.foldl_nil, get?_addAttribute, ih,
      lastGives_concat_iff]

theorem get?_tagAttributes_eq_none {ts : List Tree} {k : String} :
  (ts.foldl addAttribute []).get? k = none ↔ ∀ t ∈ ts, ∀ v, written? t ≠ some (k, v)
  := by
  rw [Option.eq_none_iff_forall_ne_some]
  simp only [ne_eq, get?_tagAttributes]
  rw [← not_exists, exists_lastGives_iff]
  simp

/-- The attributes of a tag have different names. -/
theorem nodup_tagAttributes (ts : List Tree) :
  ((ts.foldl addAttribute []).map Prod.fst).Nodup
  := by
  induction ts using List.reverseRecOn with
  | nil => exact List.nodup_nil
  | append_singleton ts t ih =>
    rw [List.foldl_append, List.foldl_cons, List.foldl_nil, addAttribute_eq]
    cases written? t with
    | none => apply ih
    | some entry => exact Attributes.nodup_insert ih

/-- Attributes that are those of a tag with the given children. -/
structure Attributes.Resolved (attributes : Attributes) (ts : List Tree) : Prop where
  named : ∀ k ≠ spreadName, ∀ v,
    attributes.get? k = some v ↔ LastGives (fun t v => t.Sets k v) ts v
  missing : ∀ k ≠ spreadName,
    attributes.get? k = none ↔ ∀ t ∈ ts, ∀ v, ¬ t.Sets k v
  spread : attributes.get? spreadName = some (.boolean true) ↔ ∃ t ∈ ts, t.Spreads
  noSpread : attributes.get? spreadName = none ↔ ¬ ∃ t ∈ ts, t.Spreads
  keys : ∀ k ∈ attributes.map Prod.fst,
    k = spreadName ∧ (∃ t ∈ ts, t.Spreads) ∨ ∃ t ∈ ts, ∃ v, t.Sets k v
  nodup : (attributes.map Prod.fst).Nodup

/-- The record of spreads is missing if there is no spread. -/
theorem get?_spreadName_eq_none {ts : List Tree}
    (hspread : ∀ t ∈ ts, ∀ v, ¬ t.Sets spreadName v) :
  (ts.foldl addAttribute []).get? spreadName = none ↔ ¬ ∃ t ∈ ts, t.Spreads
  := by
  rw [get?_tagAttributes_eq_none]
  constructor
  · rintro h ⟨t, ht, hspreads⟩
    exact h t ht _ (written?_eq_some_iff.mpr (.inr ⟨hspreads, rfl, rfl⟩))
  · intro h t ht v hwritten
    rcases written?_eq_some_iff.mp hwritten with hsets | ⟨hspreads, -, -⟩
    · apply hspread t ht v hsets
    · exact h ⟨t, ht, hspreads⟩

/-- The record of spreads is a truth value. -/
theorem get?_spreadName_eq_some {ts : List Tree}
    (hspread : ∀ t ∈ ts, ∀ v, ¬ t.Sets spreadName v) :
  (ts.foldl addAttribute []).get? spreadName = some (.boolean true) ↔ ∃ t ∈ ts, t.Spreads
  := by
  constructor
  · intro h
    by_contra hnone
    cases ((get?_spreadName_eq_none hspread).mpr hnone).symm.trans h
  · intro h
    obtain ⟨v, hv⟩ := Option.ne_none_iff_exists'.mp
      fun hnone => (get?_spreadName_eq_none hspread).mp hnone h
    obtain ⟨before, t, after, rfl, hwritten, -⟩ := get?_tagAttributes.mp hv
    rcases written?_eq_some_iff.mp hwritten with hsets | ⟨-, -, rfl⟩
    · exact absurd hsets (hspread t (by simp) v)
    · apply hv

/-- The attributes of a tag are resolved if no attribute has the name that records spreads. -/
theorem resolved_tagAttributes {ts : List Tree}
    (hspread : ∀ t ∈ ts, ∀ v, ¬ t.Sets spreadName v) :
  Attributes.Resolved (ts.foldl addAttribute []) ts
  := by
  have hsets : ∀ k ≠ spreadName, ∀ t v, written? t = some (k, v) ↔ t.Sets k v := by
    intro k hk t v
    simp [written?_eq_some_iff, hk]
  have hmissing : ∀ k ≠ spreadName, (ts.foldl addAttribute []).get? k = none
      ↔ ∀ t ∈ ts, ∀ v, ¬ t.Sets k v := by
    intro k hk
    simp only [get?_tagAttributes_eq_none, ne_eq, hsets k hk]
  refine ⟨?_, hmissing, get?_spreadName_eq_some hspread, get?_spreadName_eq_none hspread, ?_,
    nodup_tagAttributes ts⟩
  · intro k hk v
    simp only [get?_tagAttributes, hsets k hk]
  · intro k hmem
    rw [Attributes.mem_keys_iff] at hmem
    by_cases hk : k = spreadName
    · subst hk
      exact .inl ⟨rfl, not_not.mp (mt (get?_spreadName_eq_none hspread).mpr hmem)⟩
    · have := mt (hmissing k hk).mpr hmem
      simp only [not_forall, not_not, exists_prop] at this
      exact .inr this

/-- If no attribute has the name that records spreads, a tag has the last attribute of each name and
a record of whether there is a spread.  Parentheses around a value in braces change nothing, however
many there are. -/
theorem attributes_resolved (tag : Tree) (name : TagName) (hasChildren selfClosing : Bool)
    (hspread : ∀ t ∈ tag.children, ∀ v, ¬ t.Sets spreadName v) :
  (elementOf tag name hasChildren selfClosing).attributes.Resolved tag.children
    ∧ ∀ (n : Nat) (ts us : List Tree) (o : Option Tree), InParentheses n ts o →
        InParentheses 0 us o → Value.ofBraces ts = Value.ofBraces us
  := by
  refine ⟨resolved_tagAttributes hspread, ?_⟩
  intro n ts us o hts hus
  rw [Value.ofBraces, Value.ofBraces, hts.content?_eq, hus.content?_eq]

/-- A tree of one node. -/
def leafTree (kind : Kind) (text : String) : Tree :=
  .node kind .plain 1 1 text []

/-- A tag with two attributes of one name, the later one in parentheses after a comment, and a
spread. -/
def repeatedTag : Tree :=
  .node .selfClosing .plain 1 1 ""
    [.node .attribute .plain 1 1 "" [leafTree .identifier "alt", leafTree .string "'x'"],
     .node .attribute .plain 1 1 ""
       [leafTree .identifier "alt",
        .node .container .plain 1 1 ""
          [leafTree .comment "", .node .parenthesized .plain 1 1 "" [leafTree .string "'y'"]]],
     .node .container .plain 1 1 "" [leafTree .spread ""]]

/-- The later attribute of the tag has its value, and the spread is recorded. -/
theorem attributes_resolved_repeatedTag :
  (∀ t ∈ repeatedTag.children, ∀ v, ¬ t.Sets spreadName v)
    ∧ (elementOf repeatedTag .other false true).attributes.get? "alt" = some (.string "y")
    ∧ (elementOf repeatedTag .other false true).attributes.get? "src" = none
    ∧ (elementOf repeatedTag .other false true).attributes.get? spreadName
        = some (.boolean true)
  := by
  have hnames : ∀ k, k ≠ "alt" → ∀ t ∈ repeatedTag.children, ∀ v, ¬ t.Sets k v := by
    intro k hk
    simp [Tree.sets_iff, repeatedTag, leafTree, Tree.children, Tree.kind, attribute?, Tree.parts,
      Tree.text, hk.symm]
  have hinside : InParentheses 1
      [leafTree .comment "", .node .parenthesized .plain 1 1 "" [leafTree .string "'y'"]]
      (some (leafTree .string "'y'")) :=
    .layer ⟨[leafTree .comment ""], [], rfl, by simp [leafTree, Tree.kind], by decide⟩ rfl
      (.bare ⟨[], [], rfl, nofun, by decide⟩ (by decide))
  have hspells : (leafTree .string "'y'").Spells (.string "y") := .string rfl
  obtain ⟨h, -⟩ := attributes_resolved repeatedTag .other false true (hnames _ (by decide))
  refine ⟨hnames _ (by decide), ?_, ?_, ?_⟩
  · refine (h.named "alt" (by decide) _).mpr ⟨[_], _, [_], rfl, ?_, ?_⟩
    · change Tree.Sets _ (leafTree .identifier "alt").text _
      refine .valued rfl rfl ?_
      exact .braces rfl hinside hspells
    · simp [Tree.sets_iff, Tree.kind]
  · exact (h.missing "src" (by decide)).mpr (hnames _ (by decide))
  · exact h.spread.mpr ⟨_, List.mem_of_getLast? rfl, rfl, _, List.mem_cons_self, rfl⟩

end AccessAudit.Markup
