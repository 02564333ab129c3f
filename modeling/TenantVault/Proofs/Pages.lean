import Mathlib.Data.List.Basic
import TenantVault.Proofs.Integrity
import TenantVault.Proofs.Isolation
import TenantVault.Proofs.Rebuild

/-! # Namespaces page by page

The namespaces are listed in descending order of their names, a few at a time, and the last name of one page is
where the next page begins. The invariant is that what has been listed and what is left are the whole list in
its order: then what comes strictly before the last name is what is left, so that no name is skipped and none
is listed again.
-/

namespace TenantVault

/-! ## Pages of one size -/

/-- No page is empty, none has too many entries, and only the last one may have fewer than there is room for. -/
structure Paged {α : Type} (size : Nat) (pages : List (List α)) : Prop where
  nonempty : ∀ page ∈ pages, page ≠ []
  atMost : ∀ page ∈ pages, page.length ≤ size
  full : ∀ page ∈ pages.dropLast, page.length = size

namespace Paged

variable {α : Type} {size : Nat} {pages : List (List α)}

theorem nil : Paged size ([] : List (List α)) := ⟨nofun, nofun, nofun⟩

/-- A first page, which is full if there are others. -/
theorem cons {page : List α} (h : Paged size pages) (hSome : page ≠ []) (hAtMost : page.length ≤ size)
    (hFull : pages ≠ [] → page.length = size) : Paged size (page :: pages) where
  nonempty := List.forall_mem_cons.mpr ⟨hSome, h.nonempty⟩
  atMost := List.forall_mem_cons.mpr ⟨hAtMost, h.atMost⟩
  full := by
    by_cases hLast : pages = []
    · subst hLast
      nofun
    · rw [List.dropLast_cons_of_ne_nil hLast]
      exact List.forall_mem_cons.mpr ⟨hFull hLast, h.full⟩

theorem flatten_eq_nil_iff (h : Paged size pages) : pages.flatten = [] ↔ pages = [] := by
  rw [List.flatten_eq_nil_iff]
  constructor
  · intro hEmpty
    rw [List.eq_nil_iff_forall_not_mem]
    exact fun page hPage => h.nonempty page hPage (hEmpty page hPage)
  · rintro rfl
    nofun

/-- A page with as much of what is left as it holds, before the pages of the rest. -/
theorem take {left : List α} (h : Paged size pages) (hSize : 0 < size) (hLeft : left ≠ [])
    (hRest : pages.flatten = left.drop size) : Paged size (left.take size :: pages) := by
  refine h.cons ?_ (List.length_take_le ..) ?_
  · intro hNone
    exact (List.take_eq_nil_iff.mp hNone).elim hSize.ne' hLeft
  · -- If there is something on the pages after this one, then more is left than one page holds.
    intro hMore
    rw [ne_eq, ← h.flatten_eq_nil_iff, hRest, List.drop_eq_nil_iff] at hMore
    rw [List.length_take]
    omega

end Paged

theorem Json.eq_text_of_content? {v : Json} {s : String} (h : v.content? = some (.text s)) : v = .text s := by
  cases v with
  | text s' =>
    cases h
    rfl
  | float x =>
    -- A number is whole or it is not, and it is no text in either case.
    unfold content? scalar? at h
    rw [Option.map_some, Scalar.content] at h
    split at h <;> cases h
  | null | bool | int | list | object => cases h

/-! ## All namespaces in order -/

/-- All names are texts, and so can be compared. -/
def Tables.NamedByTexts (t : Tables) : Prop := ∀ key ∈ t.namespaces.keys, ∃ name : String, key = .text name

/-- Only a snapshot that the service has not written itself brings in names that are no texts. -/
theorem Server.FromEmpty.namedByTexts {service : Principal} {s : Server} (h : FromEmpty service s) :
    s.world.tables.NamedByTexts := h.whole.native.names

namespace Tables

variable {t : Tables}

/-- A name and what is kept under it, as a row of the table. -/
def namedRow (named : String × Namespace) : Scalar × Namespace := (.text named.1, named.2)

/-- The namespaces with their names, in the order in which they are listed. -/
structure Descending (t : Tables) (spaces : List (String × Namespace)) : Prop where
  names : t.names = .ok (spaces.map fun named => .text named.1)
  named : ∀ named ∈ spaces, named.2.name = .text named.1
  found : ∀ named ∈ spaces, t.namespaces.get? (.text named.1) = some named.2
  descending : spaces.Pairwise fun a b => b.1 < a.1

theorem exists_descending (hKeyed : t.Keyed) (hTexts : t.NamedByTexts) :
    ∃ spaces, t.Descending spaces ∧ (spaces.map namedRow).Perm t.namespaces.rows := by
  have hOrigin : ∀ row ∈ t.namespaces.rows, ∃ named, namedRow named = row := by
    intro row hRow
    obtain ⟨name, hKey⟩ := hTexts row.1 (Table.keys_of_mem hRow)
    exact ⟨(name, row.2), Prod.ext hKey.symm rfl⟩
  obtain ⟨rows, hRows⟩ := exists_map_eq hOrigin
  have hApart : rows.Pairwise fun a b => compare b.1 a.1 ≠ .eq := by
    have hDistinct := t.namespaces.distinct
    rw [← hRows, List.map_map, List.pairwise_map] at hDistinct
    refine hDistinct.imp ?_
    intro a b hOther hSame
    have hName : b.1 = a.1 := Std.LawfulEqCmp.compare_eq_iff_eq.mp hSame
    rw [Function.comp_apply, Function.comp_apply, namedRow, namedRow, hName, BEq.rfl] at hOther
    cases hOther
  have hText : Std.TransCmp fun a b : String => compare b a := inferInstance
  have hOrder : Std.TransCmp fun a b : String × Namespace => compare b.1 a.1 := transCmp_comap hText Prod.fst
  have hComparable (a b : String × Namespace) : (Scalar.text a.1).isComparable (.text b.1) = true := rfl
  obtain ⟨spaces, hSorted, hPerm, hDescending⟩ := exists_sort?_ascending hOrder hComparable hApart
  have hSorted : sort? (fun a b => (Scalar.text b.1).compare (.text a.1))
      (fun a b => (Scalar.text a.1).isComparable (.text b.1)) rows = some spaces := hSorted
  have hMem : ∀ named ∈ spaces, namedRow named ∈ t.namespaces.rows := by
    intro named hNamed
    rw [← hRows]
    exact List.mem_map_of_mem (hPerm.mem_iff.mp hNamed)
  refine ⟨spaces, ⟨?_, ?_, ?_, ?_⟩, hRows ▸ hPerm.map namedRow⟩
  · have hKeys : t.namespaces.keys = rows.map fun named => .text named.1 := by
      rw [Table.keys, ← hRows, List.map_map]
      rfl
    rw [names, hKeys, sort?_map, hSorted]
    rfl
  · exact fun named hNamed =>
      Json.eq_text_of_content? (hKeyed (.text named.1) named.2 (Table.get?_of_mem (hMem named hNamed)))
  · exact fun named hNamed => Table.get?_of_mem (hMem named hNamed)
  · exact hDescending.imp fun hLess => compareOfLessAndEq_eq_lt.mp hLess

/-! ## One page -/

/-- Of names in descending order those before one of them are the ones that come after it. -/
theorem filter_before {gone left : List (String × Namespace)} {last : String × Namespace}
    (hDescending : (gone ++ last :: left).Pairwise fun a b => b.1 < a.1) :
    (gone ++ last :: left).filter (fun named => decide (named.1 < last.1)) = left := by
  obtain ⟨-, hRest, hGone⟩ := List.pairwise_append.mp hDescending
  obtain ⟨hLeft, -⟩ := List.pairwise_cons.mp hRest
  have hNotGone : gone.filter (fun named => decide (named.1 < last.1)) = [] := by
    rw [List.filter_eq_nil_iff]
    intro named hNamed
    rw [decide_eq_true_iff]
    exact String.lt_asymm (hGone named hNamed last List.mem_cons_self)
  have hAllLeft : left.filter (fun named => decide (named.1 < last.1)) = left := by
    rw [List.filter_eq_self]
    exact fun named hNamed => decide_eq_true (hLeft named hNamed)
  rw [List.filter_append, hNotGone, List.nil_append, List.filter_cons_of_neg, hAllLeft]
  rw [decide_eq_true_iff]
  exact String.lt_irrefl last.1

theorem namesBefore_last {gone left : List (String × Namespace)} {last : String × Namespace}
    (hDescending : (gone ++ last :: left).Pairwise fun a b => b.1 < a.1) :
    namesBefore last.1 ((gone ++ last :: left).map fun named => .text named.1) =
      .ok (left.map fun named => .text named.1) := by
  have hComparable : ((gone ++ last :: left).map fun named => Scalar.text named.1).all
      (·.isComparable (.text last.1)) = true := by
    rw [List.all_map]
    exact List.all_eq_true.mpr fun _ _ => rfl
  have hBefore : ((fun name : Scalar => decide (name.compare (.text last.1) = .lt)) ∘
      fun named : String × Namespace => .text named.1) = fun named => decide (named.1 < last.1) :=
    funext fun named => decide_eq_decide.mpr compareOfLessAndEq_eq_lt
  rw [namesBefore, if_pos hComparable, List.filter_map, hBefore, filter_before hDescending]

/-- How many namespaces a page may have. -/
def pageSize (count : Option Int) : Nat := (min (count.getD defaultPage) maxPage).toNat

/-- After the namespaces that have been listed come those that are left. -/
theorem listNamespaces_after {gone left : List (String × Namespace)} (h : t.Descending (gone ++ left))
    {count : Int} (hCount : 0 ≤ count) :
    t.listNamespaces (gone.getLast?.map Prod.fst) count = .ok ((left.take count.toNat).map Prod.snd) := by
  have hFirst : firstItems count (left.map fun named => Scalar.text named.1) =
      (left.take count.toNat).map fun named => Scalar.text named.1 := by
    rw [firstItems, if_pos hCount, List.map_take]
  have hFound : ((left.take count.toNat).map fun named => Scalar.text named.1).filterMap t.namespaces.get? =
      (left.take count.toNat).map Prod.snd := by
    rw [List.filterMap_map, ← List.filterMap_eq_map]
    refine List.filterMap_congr fun named hNamed => ?_
    exact h.found named (List.mem_append_right gone (List.mem_of_mem_take hNamed))
  have hLeft : t.listNamespaces (gone.getLast?.map Prod.fst) count =
      .ok ((firstItems count (left.map fun named => Scalar.text named.1)).filterMap t.namespaces.get?) := by
    rw [listNamespaces, h.names]
    rcases List.eq_nil_or_concat gone with rfl | ⟨gone, last, rfl⟩
    · rfl
    · have hDescending := h.descending
      rw [List.concat_append] at hDescending
      rw [List.concat_eq_append, List.getLast?_concat, Option.map_some, List.append_assoc, List.singleton_append]
      simp only [bind, Except.bind]
      rw [namesBefore_last hDescending]
      rfl
  rw [hLeft, hFirst, hFound]

theorem namespacePage_after {caller : Principal} {count : Option Int} {gone left : List (String × Namespace)}
    (h : t.Descending (gone ++ left))
    (hCaller : caller ∈ t.governance.managers ∨ caller ∈ t.governance.auditors)
    (hCount : 0 < pageSize count) :
    t.namespacePage caller (gone.getLast?.map Prod.fst) count =
      .ok ((left.take (pageSize count)).map fun named => t.namespaceInfo named.2) := by
  have hPositive : ¬ min (count.getD defaultPage) maxPage ≤ 0 := by
    unfold pageSize at hCount
    omega
  have hCaller' : (decide (caller ∈ t.governance.managers) || decide (caller ∈ t.governance.auditors)) = true := by
    rw [Bool.or_eq_true, decide_eq_true_iff, decide_eq_true_iff]
    exact hCaller
  have hListed := listNamespaces_after h (Int.le_of_lt (Int.not_le.mp hPositive))
  rw [namespacePage, hCaller']
  simp only [Access.demand, bind, Except.bind, if_true, if_neg hPositive, hListed, List.map_map]
  rfl

/-! ## Page after page -/

/-- The pages that a caller is given one after the other, each for the names before the last one on the page
before it, until a page is empty. -/
inductive Pages (t : Tables) (caller : Principal) (count : Option Int) :
    Option String → List (List NamespaceInfo) → Prop where
  | done {before : Option String} (empty : t.namespacePage caller before count = .ok []) :
      Pages t caller count before []
  | turn {before : Option String} {page : List NamespaceInfo} {last : NamespaceInfo} {name : String}
      {pages : List (List NamespaceInfo)} (shown : t.namespacePage caller before count = .ok page)
      (ends : page.getLast? = some last) (named : last.record.name = .text name)
      (rest : Pages t caller count (some name) pages) : Pages t caller count before (page :: pages)

section Paging

variable {caller : Principal} {count : Option Int} {before : Option String}

theorem Pages.unique {pages pages' : List (List NamespaceInfo)} (h : t.Pages caller count before pages)
    (h' : t.Pages caller count before pages') : pages' = pages := by
  induction h generalizing pages' with
  | done empty =>
    cases h' with
    | done => rfl
    | turn shown ends =>
      cases empty.symm.trans shown
      cases ends
  | turn shown ends named rest ih =>
    cases h' with
    | done empty =>
      cases empty.symm.trans shown
      cases ends
    | turn shown' ends' named' rest' =>
      cases shown.symm.trans shown'
      cases ends.symm.trans ends'
      cases named.symm.trans named'
      rw [ih rest']

/-- What is left is shown on pages that are full up to the last one. -/
theorem exists_pages_after (hCaller : caller ∈ t.governance.managers ∨ caller ∈ t.governance.auditors)
    (hCount : 0 < pageSize count) {gone left : List (String × Namespace)} (h : t.Descending (gone ++ left)) :
    ∃ pages, t.Pages caller count (gone.getLast?.map Prod.fst) pages ∧ Paged (pageSize count) pages ∧
      pages.flatten = left.map fun named => t.namespaceInfo named.2 := by
  induction hLength : left.length using Nat.strongRecOn generalizing gone left with
  | ind length ih =>
    have hPage := namespacePage_after h hCaller hCount
    by_cases hLeft : left = []
    · rw [hLeft, List.take_nil] at hPage
      exact ⟨[], .done hPage, Paged.nil, by rw [hLeft]; rfl⟩
    · have hTaken : left.take (pageSize count) ≠ [] := fun hNone =>
        (List.take_eq_nil_iff.mp hNone).elim hCount.ne' hLeft
      obtain ⟨early, last, hSome⟩ := (List.eq_nil_or_concat _).resolve_left hTaken
      rw [List.concat_eq_append] at hSome
      have hSplit : early ++ last :: left.drop (pageSize count) = left := by
        rw [List.append_cons, ← hSome, List.take_append_drop]
      have hLess : (left.drop (pageSize count)).length < length := by
        rw [← hLength, List.length_drop]
        have hPositive := List.length_pos_of_ne_nil hLeft
        omega
      have hNext : t.Descending ((gone ++ early ++ [last]) ++ left.drop (pageSize count)) := by
        rwa [List.append_assoc, List.singleton_append, List.append_assoc, hSplit]
      have hNamed : (t.namespaceInfo last.2).record.name = .text last.1 := by
        refine h.named last (List.mem_append_right gone ?_)
        rw [← hSplit]
        exact List.mem_append_right early List.mem_cons_self
      have hEnds : ((left.take (pageSize count)).map fun named => t.namespaceInfo named.2).getLast? =
          some (t.namespaceInfo last.2) := by
        rw [hSome, List.getLast?_map, List.getLast?_concat, Option.map_some]
      obtain ⟨pages, hPages, hPaged, hFlatten⟩ := ih _ hLess hNext rfl
      rw [List.getLast?_concat] at hPages
      refine ⟨_ :: pages, .turn hPage hEnds hNamed hPages, ?_, ?_⟩
      · rw [List.map_drop] at hFlatten
        rw [List.map_take]
        exact hPaged.take hCount (by rwa [ne_eq, List.map_eq_nil_iff]) hFlatten
      · rw [List.flatten_cons, hFlatten, ← List.map_append, List.take_append_drop]

/-- Whoever may list the namespaces and asks for the next page until there is none has been shown every namespace
once, in descending order of the names. -/
theorem pages_show_each_once (hKeyed : t.Keyed) (hTexts : t.NamedByTexts)
    (hCaller : caller ∈ t.governance.managers ∨ caller ∈ t.governance.auditors)
    (hCount : ∀ n, count = some n → 1 ≤ n) :
    ∃ (spaces : List Namespace) (pages : List (List NamespaceInfo)),
      spaces.Perm t.namespaces.values ∧
      (spaces.Pairwise fun a b => ∃ m n : String, a.name = .text m ∧ b.name = .text n ∧ n < m) ∧
      (∀ pages', t.Pages caller count none pages' ↔ pages' = pages) ∧
      pages.flatten = spaces.map t.namespaceInfo ∧
      Paged (pageSize count) pages := by
  have hPositive : 0 < pageSize count := by
    unfold pageSize
    cases count with
    | none => decide
    | some n =>
      have hAsked := hCount n rfl
      rw [Option.getD_some]
      unfold maxPage
      omega
  obtain ⟨spaces, hListed, hPerm⟩ := exists_descending hKeyed hTexts
  have hNoneGone : t.Descending ([] ++ spaces) := hListed
  obtain ⟨pages, hPages, hPaged, hFlatten⟩ := exists_pages_after hCaller hPositive hNoneGone
  refine ⟨spaces.map Prod.snd, pages, ?_, ?_, ?_, ?_, hPaged⟩
  · have hValues := hPerm.map Prod.snd
    rwa [List.map_map] at hValues
  · rw [List.pairwise_map]
    refine hListed.descending.imp_of_mem ?_
    intro a b ha hb hLess
    exact ⟨a.1, b.1, hListed.named a ha, hListed.named b hb, hLess⟩
  · intro pages'
    constructor
    · exact fun hPages' => hPages.unique hPages'
    · rintro rfl
      exact hPages
  · rw [hFlatten, List.map_map]
    rfl

end Paging

open Server.Sample in
theorem two_namespaces_on_two_pages : ∃ pages, furnished.world.tables.Pages owner (some 1) none pages ∧
    pages.flatten.length = 2 ∧ ∀ page ∈ pages, page.length = 1 := by
  have hReached : furnished.Reached owner := ⟨config, events ++ furnishing, rfl⟩
  have hCalls : Server.Calls (fun task => task.isLoad = false) (events ++ furnishing) := by
    intro id task hMem
    simp only [events, furnishing, List.cons_append, List.nil_append, List.mem_cons, List.not_mem_nil,
      Event.call.injEq, or_false] at hMem
    rcases hMem with ⟨-, rfl⟩ | ⟨-, rfl⟩ | ⟨-, rfl⟩ | ⟨-, rfl⟩ | ⟨-, rfl⟩ <;> rfl
  have hTexts : furnished.world.tables.NamedByTexts := ((Server.FromEmpty.start config).run hCalls).namedByTexts
  have hManager : owner ∈ furnished.world.tables.governance.managers := by decide
  have hCount : ∀ n, some (1 : Int) = some n → 1 ≤ n := by
    rintro n ⟨⟩
    decide
  obtain ⟨spaces, pages, hAll, -, hPages, hFlatten, hPaged⟩ :=
    pages_show_each_once hReached.keyed hTexts (Or.inl hManager) hCount
  refine ⟨pages, (hPages pages).mpr rfl, ?_, ?_⟩
  · rw [hFlatten, List.length_map, hAll.length_eq]
    rfl
  · intro page hPage
    exact Nat.le_antisymm (hPaged.atMost page hPage) (List.length_pos_of_ne_nil (hPaged.nonempty page hPage))

end Tables

end TenantVault
