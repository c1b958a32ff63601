import Mathlib.Data.List.Induction
import Mathlib.Data.List.Nodup
import StructAtlas.Proofs.NullCharacters

set_option autoImplicit false

/-!
# Trees as an operating system has them

A tree is proper if no two things stand in one place, everything stands in a directory, and no name
is `..` or has a null character (`FileTree.IsProper`). In such a tree a path behind a directory
leads where its components say, unless the operating system refuses to follow it
(`FileTree.IsProper.place_join`).

Taking files away leaves a proper tree with the same directories (`FileTree.IsProper.without`).
-/

namespace StructAtlas

namespace FileTree

variable {t t' : FileTree} {base parts key : List String} {node : Node}

/-- No two things stand in one place. -/
def IsSingle (t : FileTree) : Prop :=
  (t.nodes.map (·.1)).Nodup

/-- A tree as an operating system has it. -/
structure IsProper (t : FileTree) : Prop where
  single : t.IsSingle
  home : t.kind t.home = some true
  placed : ∀ n ∈ t.nodes, t.kind n.1.dropLast = some true
  named : ∀ n ∈ t.nodes, ".." ∉ n.1
  nullFree : t.IsNullFree

theorem mem_of_lookup (hkey : key ≠ []) (h : t.lookup key = some node) : (key, node) ∈ t.nodes := by
  rw [lookup, if_neg (by simpa using hkey)] at h
  obtain ⟨n, hfind, rfl⟩ := Option.map_eq_some_iff.1 h
  have hn : n.1 = key := by simpa using List.find?_some hfind
  rw [← hn]
  exact List.mem_of_find?_eq_some hfind

theorem IsSingle.lookup (h : t.IsSingle) (hkey : key ≠ []) (hmem : (key, node) ∈ t.nodes) :
    t.lookup key = some node := by
  rw [FileTree.lookup, if_neg (by simpa using hkey)]
  rw [IsSingle] at h
  generalize t.nodes = nodes at h hmem
  induction nodes with
  | nil => cases hmem
  | cons n nodes ih =>
    obtain ⟨hnot, hnodup⟩ := List.nodup_cons.1 h
    rcases List.mem_cons.1 hmem with rfl | hmem
    · rw [List.find?_cons_of_pos (by simp)]
      rfl
    · have hne : n.1 ≠ key := by
        rintro rfl
        exact hnot (List.mem_map.2 ⟨_, hmem, rfl⟩)
      rw [List.find?_cons_of_neg (by simpa using hne)]
      exact ih hnodup hmem

theorem lookup_ne_none : t.lookup key ≠ none ↔ t.kind key ≠ none := by
  rw [kind, Ne, Ne, Option.map_eq_none_iff]

/-- What stands in a place has a name there. -/
theorem exists_node (hkey : key ≠ []) (h : t.kind key ≠ none) : ∃ node, (key, node) ∈ t.nodes := by
  obtain ⟨node, hnode⟩ := Option.ne_none_iff_exists'.1 (lookup_ne_none.2 h)
  exact ⟨node, mem_of_lookup hkey hnode⟩

theorem length_le_depth (h : (key, node) ∈ t.nodes) : key.length ≤ t.depth := by
  rw [depth]
  generalize t.nodes = nodes at h
  induction nodes with
  | nil => cases h
  | cons n nodes ih =>
    rw [List.foldr_cons]
    rcases List.mem_cons.1 h with rfl | h
    · exact Nat.le_max_left _ _
    · exact Nat.le_trans (ih h) (Nat.le_max_right _ _)

/-! ## The names in a directory -/

theorem namesIn_eq (t : FileTree) (key : List String) :
    t.namesIn key = t.nodes.filterMap fun n =>
      match Path.dropParts? key n.1 with
      | some [name] => some name
      | _ => none := rfl

theorem nameIn_eq_some {name : String} {other : List String} :
    (match Path.dropParts? key other with
      | some [name] => some name
      | _ => none) = some name ↔ other = key ++ [name] := by
  constructor
  · intro h
    split at h
    · rename_i hdrop
      cases h
      exact Path.dropParts?_eq_some.1 hdrop
    · cases h
  · rintro rfl
    rw [Path.dropParts?_eq_some.2 rfl]

theorem mem_namesIn {name : String} : name ∈ t.namesIn key ↔ t.kind (key ++ [name]) ≠ none := by
  have hne : key ++ [name] ≠ [] := by simp
  rw [namesIn_eq, List.mem_filterMap]
  simp only [nameIn_eq_some]
  constructor
  · rintro ⟨⟨other, node⟩, hn, rfl⟩
    rw [← lookup_ne_none, lookup, if_neg (by simp), Ne, Option.map_eq_none_iff, List.find?_eq_none]
    intro hall
    exact hall _ hn (by simp)
  · intro h
    obtain ⟨node, hnode⟩ := exists_node hne h
    exact ⟨_, hnode, rfl⟩

theorem IsSingle.nodup_namesIn (h : t.IsSingle) (key : List String) : (t.namesIn key).Nodup := by
  rw [namesIn_eq]
  have hpairwise : t.nodes.Pairwise fun n m => n.1 ≠ m.1 := List.pairwise_map.1 h
  refine hpairwise.filterMap _ fun n m hne p hp q hq e => ?_
  exact hne (by rw [nameIn_eq_some.1 hp, nameIn_eq_some.1 hq, e])

/-! ## Where paths behind a directory lead -/

/-- Above everything that stands in a proper tree there are directories. -/
theorem IsProper.kind_above (h : t.IsProper) {rest : List String} (hne : rest ≠ [])
    (hkind : t.kind (key ++ rest) ≠ none) : t.kind key = some true := by
  induction rest using List.reverseRecOn with
  | nil => exact absurd rfl hne
  | append_singleton rest part ih =>
    obtain ⟨node, hnode⟩ := exists_node (by simp) hkind
    have hplaced := h.placed _ hnode
    rw [← List.append_assoc, List.dropLast_concat] at hplaced
    by_cases hrest : rest = []
    · simpa [hrest] using hplaced
    · refine ih hrest ?_
      rw [hplaced]
      exact Option.some_ne_none _

/-- A walk down to something that stands in a proper tree arrives, or it is refused. -/
theorem IsProper.walk (h : t.IsProper) (hkind : t.kind (base ++ parts) ≠ none) :
    t.walk base parts = .ok (base ++ parts)
      ∨ ∃ fault, t.walk base parts = .error fault ∧ isNowhere fault = false := by
  induction parts generalizing base with
  | nil => exact Or.inl (by rw [List.append_nil]; rfl)
  | cons part parts ih =>
    have habove : t.kind base = some true := h.kind_above (List.cons_ne_nil part parts) hkind
    have hup : part ≠ ".." := by
      rintro rfl
      obtain ⟨node, hnode⟩ := exists_node (by simp) hkind
      exact h.named _ hnode (by simp)
    rw [walk_cons, habove]
    simp only
    split
    · exact Or.inr ⟨_, rfl, rfl⟩
    · rw [if_neg (by simpa using hup)]
      split
      · exact Or.inr ⟨_, rfl, rfl⟩
      · have happend : base ++ part :: parts = (base ++ [part]) ++ parts := by simp
        rw [happend] at hkind ⊢
        exact ih hkind

/-- Without `..` the components of a path say where it leads. -/
theorem parts_of_place {p : Path} (hup : ".." ∉ p.parts) (h : t.place p = .ok key) :
    key = t.origin p ++ p.parts :=
  arrived_of_walk hup (place_eq_ok.1 h).2.2

theorem origin_join (t : FileTree) (root : Path) (parts : List String) :
    t.origin (root.join ⟨"", parts⟩) = t.origin root := rfl

/-- Behind a directory the components of a path decide where it leads, unless it is too long. -/
theorem place_join {root : Path} (hroot : t.place root = .ok base)
    (hparts : ∀ part ∈ parts, '\x00' ∉ part.toList) :
    t.place (root.join ⟨"", parts⟩) = t.walk base parts
      ∨ t.place (root.join ⟨"", parts⟩) = .error .nameTooLong := by
  have hfree := (isNullFree_of_place hroot).join hparts
  have hnull : ¬ (root.join ⟨"", parts⟩).toText.toList.contains '\x00' = true := fun hmem =>
    Path.isNullFree_iff.1 hfree (List.contains_iff_mem.1 hmem)
  have hjoin : root.join ⟨"", parts⟩ = ⟨root.root, root.parts ++ parts⟩ := rfl
  rw [place, if_neg hnull]
  split
  · exact Or.inr rfl
  · refine Or.inl ?_
    rw [origin_join, hjoin]
    exact walk_append (place_eq_ok.1 hroot).2.2 parts

/-- The path of something that stands behind a directory leads to it, or it is refused. -/
theorem IsProper.place_join (h : t.IsProper) {root : Path} (hroot : t.place root = .ok base)
    (hkind : t.kind (base ++ parts) ≠ none) :
    t.place (root.join ⟨"", parts⟩) = .ok (base ++ parts)
      ∨ ∃ fault, t.place (root.join ⟨"", parts⟩) = .error fault ∧ isNowhere fault = false := by
  by_cases hparts : parts = []
  · have hsame : root.join ⟨"", parts⟩ = root := by
      rw [hparts]
      exact congrArg (Path.mk root.root) (List.append_nil _)
    rw [hsame, hparts, List.append_nil]
    exact Or.inl hroot
  · obtain ⟨node, hnode⟩ := exists_node (by simp [hparts]) hkind
    have hfree : ∀ part ∈ parts, '\x00' ∉ part.toList := fun part hpart =>
      h.nullFree.nodes _ hnode part (List.mem_append_right _ hpart)
    rcases FileTree.place_join hroot hfree with hwalk | hlong
    · rw [hwalk]
      exact h.walk hkind
    · exact Or.inr ⟨_, hlong, rfl⟩

/-- What the operating system says about something that stands behind a directory is right. -/
theorem IsProper.find?_join (h : t.IsProper) {root : Path} (hroot : t.place root = .ok base)
    (hkind : t.kind (base ++ parts) ≠ none) {found : Option Node}
    (hfind : t.find? (root.join ⟨"", parts⟩) = .ok found) :
    t.place (root.join ⟨"", parts⟩) = .ok (base ++ parts) ∧ found = t.lookup (base ++ parts) := by
  rw [find?] at hfind
  rcases h.place_join hroot hkind with hplace | ⟨fault, hplace, hnowhere⟩
  · rw [hplace] at hfind ⊢
    exact ⟨rfl, (Except.ok.inj hfind).symm⟩
  · rw [hplace] at hfind
    simp [hnowhere] at hfind

/-! ## More and fewer files -/

theorem keys_putNode (key : List String) (node : Node) (ns : List (List String × Node)) :
    (putNode key node ns).map (·.1)
      = if key ∈ ns.map (·.1) then ns.map (·.1) else ns.map (·.1) ++ [key] := by
  induction ns with
  | nil => rfl
  | cons n ns ih =>
    rw [putNode]
    by_cases hn : n.1 = key
    · rw [if_pos (by simpa using hn), List.map_cons, List.map_cons, hn, if_pos List.mem_cons_self]
    · have hmem : key ∈ (n :: ns).map (·.1) ↔ key ∈ ns.map (·.1) := by
        simp [Ne.symm hn]
      rw [if_neg (by simpa using hn), List.map_cons, ih]
      simp only [hmem]
      split <;> simp

theorem IsSingle.put (h : t.IsSingle) (key : List String) (node : Node) :
    (t.put key node).IsSingle := by
  rw [IsSingle] at h ⊢
  rw [FileTree.put, keys_putNode]
  split
  · exact h
  · rename_i hnew
    refine List.nodup_append.2 ⟨h, List.nodup_singleton key, ?_⟩
    intro a ha b hb e
    rw [e, List.mem_singleton.1 hb] at ha
    exact hnew ha

theorem IsProper.up_not_mem (h : t.IsProper) (hkind : t.kind key ≠ none) : ".." ∉ key := by
  by_cases hkey : key = []
  · rw [hkey]
    exact List.not_mem_nil
  · obtain ⟨node, hnode⟩ := exists_node hkey hkind
    exact h.named _ hnode

/-- A walk brings no `..` into a place. -/
theorem up_not_mem_of_walk {ps arrived : List String} (hkey : ".." ∉ key)
    (h : t.walk key ps = .ok arrived) : ".." ∉ arrived := by
  induction ps generalizing key with
  | nil =>
    cases h
    exact hkey
  | cons p ps ih =>
    obtain ⟨-, -, ⟨-, hrest⟩ | ⟨hup, -, hrest⟩⟩ := walk_cons_eq_ok.1 h
    · exact ih (fun hmem => hkey ((List.dropLast_sublist _).subset hmem)) hrest
    · refine ih (fun hmem => ?_) hrest
      rcases List.mem_append.1 hmem with hmem | hmem
      · exact hkey hmem
      · exact hup (List.mem_singleton.1 hmem).symm

/-- A tree stays proper if a file is put where one can be written. -/
theorem IsProper.put (h : t.IsProper) {p : Path} (htarget : t.target p = .ok key)
    (content : List UInt8) : (t.put key (.file content)).IsProper := by
  have hkeeps := keeps_put_file (ne_directory_of_target htarget) content
  obtain ⟨hplace, hkind, -⟩ := target_eq_ok.1 htarget
  -- The directory of the file is there, whether the file is new or not.
  have habove : t.kind key.dropLast = some true := by
    rcases hkind with hfile | ⟨-, hentry⟩
    · obtain ⟨node, hnode⟩ := exists_node (ne_nil_of_kind hfile (by decide))
        (by rw [hfile]; exact Option.some_ne_none _)
      exact h.placed _ hnode
    · exact (permitEntry_eq_ok.1 hentry).1
  have horigin : ".." ∉ t.origin p := by
    rw [origin]
    split
    · exact h.up_not_mem (by rw [h.home]; exact Option.some_ne_none _)
    · exact List.not_mem_nil
  refine ⟨h.single.put key _, hkeeps.kind _ _ h.home, fun n hn => ?_, fun n hn => ?_,
    h.nullFree.put htarget content⟩
  · rcases mem_putNode hn with rfl | hn
    · exact hkeeps.kind _ _ habove
    · exact hkeeps.kind _ _ (h.placed n hn)
  · rcases mem_putNode hn with rfl | hn
    · exact up_not_mem_of_walk horigin (place_eq_ok.1 hplace).2.2
    · exact h.named n hn

theorem IsProper.deliver (h : t.IsProper) (j : Journal) (r : Record) : (j.deliver r t).IsProper :=
  Journal.deliver_induction r (fun _ _ content _ _ ht _ _ htarget => ht.put htarget content) h

/-- The tree without what stands in some places. -/
def without (t : FileTree) (keys : List (List String)) : FileTree :=
  { t with nodes := t.nodes.filter fun n => !keys.contains n.1 }

theorem lookup_without (hkey : key ≠ []) (keys : List (List String)) :
    (t.without keys).lookup key = if key ∈ keys then none else t.lookup key := by
  rw [lookup, lookup, if_neg (by simpa using hkey), without, List.find?_filter]
  split
  · rename_i hmem
    rw [Option.map_eq_none_iff, List.find?_eq_none]
    intro n _
    by_cases hn : n.1 = key
    · simp [hn, hmem]
    · simp [hn]
  · rename_i hmem
    have hsame : (fun n : List String × Node =>
        decide ((!keys.contains n.1) = true ∧ (n.1 == key) = true)) = fun n => n.1 == key := by
      funext n
      by_cases hn : n.1 = key
      · simp [hn, hmem]
      · simp [hn]
    rw [hsame, if_neg (by simpa using hkey)]

section Without

variable {keys : List (List String)}

/-- Taking files away leaves the directories. -/
theorem kind_without (hkeys : ∀ key ∈ keys, t.kind key = some false)
    (h : t.kind key = some true) : (t.without keys).kind key = some true := by
  by_cases hkey : key = []
  · rw [hkey]
    rfl
  · have hmem : key ∉ keys := fun hmem => by
      cases (hkeys key hmem).symm.trans h
    rw [kind, lookup_without hkey, if_neg hmem]
    exact h

/-- Whatever is left stood there before. -/
theorem extends_without (t : FileTree) (keys : List (List String)) :
    Extends (t.without keys) t := by
  refine ⟨⟨rfl, rfl⟩, fun key n hn => ?_⟩
  by_cases hkey : key = []
  · rw [hkey] at hn ⊢
    exact hn
  · rw [lookup_without hkey] at hn
    split at hn
    · cases hn
    · exact hn

theorem IsProper.without (h : t.IsProper) (hkeys : ∀ key ∈ keys, t.kind key = some false) :
    (t.without keys).IsProper where
  single := h.single.sublist ((List.filter_sublist).map _)
  home := kind_without hkeys h.home
  placed n hn := kind_without hkeys (h.placed n (List.mem_filter.1 hn).1)
  named n hn := h.named n (List.mem_filter.1 hn).1
  nullFree := ⟨h.nullFree.home, fun n hn => h.nullFree.nodes n (List.mem_filter.1 hn).1⟩

end Without

/-! ## Trees with fewer files -/

/-- A tree with the same directories as another one and no other files. -/
structure Within (t t' : FileTree) : Prop extends SameSystem t t' where
  directories : ∀ key, t.kind key = some true ↔ t'.kind key = some true
  files : ∀ key, t.kind key = some false → t'.kind key = some false

theorem within_without {keys : List (List String)} (hkeys : ∀ key ∈ keys, t.kind key = some false) :
    Within (t.without keys) t where
  toSameSystem := ⟨rfl, rfl⟩
  directories key := ⟨(extends_without t keys).keeps.kind key true, kind_without hkeys⟩
  files key := (extends_without t keys).keeps.kind key false

namespace Within

variable (h : Within t t')

include h

theorem keeps : Keeps t t' := by
  refine ⟨h.toSameSystem, fun key b hb => ?_⟩
  cases b with
  | true => exact (h.directories key).1 hb
  | false => exact h.files key hb

theorem kind_ne_none (hkind : t.kind key ≠ none) : t'.kind key ≠ none := by
  obtain ⟨b, hb⟩ := Option.ne_none_iff_exists'.1 hkind
  rw [h.keeps.kind key b hb]
  exact Option.some_ne_none _

/-- The same paths lead to directories, and where this is not answered, it is answered in neither
tree. -/
theorem isDirectory {p : Path} {b : Bool} (hdirectory : t.isDirectory p = .ok b) :
    t'.isDirectory p = .ok b := by
  rw [isDirectory_eq] at hdirectory ⊢
  -- An arrival or a refusal in the larger tree is one in the smaller tree, too.
  have hback {r : Except FileFault.Kind (List String)} (hp : t'.place p = r) :
      r ≠ .error .notFound → r ≠ .error .notADirectory → t.place p = r :=
    place_of_directories h.toSameSystem.symm (fun key => (h.directories key).2) hp
  cases hplace' : t'.place p with
  | ok key =>
    cases hplace : t.place p with
    | ok key' =>
      cases hplace'.symm.trans (h.keeps.place hplace)
      rw [hplace] at hdirectory
      rw [← hdirectory]
      exact congrArg Except.ok (Bool.eq_iff_iff.2 (by simpa using (h.directories key).symm))
    | error kind =>
      cases hplace.symm.trans (hback hplace' (fun e => by cases e) (fun e => by cases e))
  | error kind =>
    cases hnowhere : isNowhere kind with
    | false =>
      have hplace := hback hplace' (fun e => by cases e; cases hnowhere)
        (fun e => by cases e; cases hnowhere)
      rw [hplace] at hdirectory
      simp [hnowhere] at hdirectory
    | true =>
      cases hplace : t.place p with
      | ok key => cases hplace'.symm.trans (h.keeps.place hplace)
      | error kind' =>
        rw [hplace] at hdirectory
        simp only at hdirectory ⊢
        rw [if_pos hnowhere]
        by_cases hnowhere' : isNowhere kind' = true
        · rwa [if_pos hnowhere'] at hdirectory
        · rw [if_neg hnowhere'] at hdirectory
          cases hdirectory

/-- Where a file can be written with fewer files, one can be written. -/
theorem target {p : Path} (htarget : t.target p = .ok key) : t'.target p = .ok key := by
  obtain ⟨hplace, hkind, hfree⟩ := target_eq_ok.1 htarget
  refine target_eq_ok.2 ⟨h.keeps.place hplace, ?_, h.isFree hfree⟩
  rcases hkind with hfile | ⟨hnone, hentry⟩
  · exact Or.inl (h.files key hfile)
  · rcases hkind' : t'.kind key with _ | _ | _
    · obtain ⟨habove, hwrite⟩ := permitEntry_eq_ok.1 hentry
      exact Or.inr ⟨rfl, permitEntry_eq_ok.2
        ⟨(h.directories _).1 habove, h.access key.dropLast ▸ hwrite⟩⟩
    · exact Or.inl rfl
    · rw [(h.directories key).2 hkind'] at hnone
      cases hnone

theorem put_right (hkey : t'.kind key ≠ some true) (content : List UInt8) :
    Within t (t'.put key (.file content)) := by
  have hput := keeps_put_file hkey content
  refine ⟨⟨h.home, h.guards⟩, fun other => ⟨fun hk => hput.kind _ _ ((h.directories _).1 hk),
    fun hk => (h.directories _).2 ?_⟩, fun other hk => hput.kind _ _ (h.files _ hk)⟩
  rw [kind_put t' (ne_nil_of_kind rfl hkey)] at hk
  split at hk
  · cases hk
  · exact hk

theorem put_both (hkey : t.kind key ≠ some true) (content content' : List UInt8) :
    Within (t.put key (.file content)) (t'.put key (.file content')) := by
  have hkey' : t'.kind key ≠ some true := fun hk => hkey ((h.directories key).2 hk)
  have hnil := ne_nil_of_kind rfl hkey
  refine ⟨⟨h.home, h.guards⟩, fun other => ?_, fun other => ?_⟩
  · rw [kind_put t hnil, kind_put t' hnil]
    split
    · exact Iff.rfl
    · exact h.directories other
  · rw [kind_put t hnil, kind_put t' hnil]
    split
    · exact id
    · exact h.files other

theorem deliverTo (j : Journal) (r : Record) (o : Outlet) :
    Within (j.deliverTo r t o) (j.deliverTo r t' o) := by
  rw [Journal.deliverTo, Journal.deliverTo]
  split
  · rename_i p _
    split
    · -- The record is appended in both trees, in the larger one only, or in none.
      cases htarget : t.target p with
      | ok key =>
        obtain ⟨content, happend⟩ := append_of_target htarget (Charset.Utf8.bytesOf (j.line r))
        obtain ⟨content', happend'⟩ :=
          append_of_target (h.target htarget) (Charset.Utf8.bytesOf (j.line r))
        rw [happend, happend']
        exact h.put_both (ne_directory_of_target htarget) content content'
      | error e =>
        have hsame : t.append p (Charset.Utf8.bytesOf (j.line r)) = .error ⟨e, p.toText⟩ := by
          rw [append, htarget]
          rfl
        rw [hsame]
        cases happend : t'.append p (Charset.Utf8.bytesOf (j.line r)) with
        | error fault => exact h
        | ok made =>
          obtain ⟨key, content, htarget', rfl⟩ := append_eq_ok happend
          exact h.put_right (ne_directory_of_target htarget') content
    · exact h
  · exact h

/-- Log records leave one tree within the other. -/
theorem deliver (j : Journal) (r : Record) : Within (j.deliver r t) (j.deliver r t') := by
  rw [Journal.deliver, Journal.deliver]
  generalize j.outlets = outlets
  induction outlets generalizing t t' with
  | nil => exact h
  | cons o outlets ih => exact ih (h.deliverTo j r o)

end Within

theorem Within.refl (t : FileTree) : Within t t :=
  ⟨.refl t, fun _ => Iff.rfl, fun _ hk => hk⟩

/-- Log records bring new files at most. -/
theorem within_deliver (t : FileTree) (j : Journal) (r : Record) : Within t (j.deliver r t) :=
  Journal.deliver_induction r (fun _ _ content _ _ ht _ _ htarget =>
    ht.put_right (ne_directory_of_target htarget) content) (.refl t)

end FileTree

end StructAtlas
