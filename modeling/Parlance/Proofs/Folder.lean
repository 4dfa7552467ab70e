import Parlance.Folder
import Parlance.Proofs.Traverse
/-!
Writing a file changes the file of the path and nothing else (exists_of_write). It makes and takes
away no folder, so that every path still leads where it led (SameFolders.resolve_eq_ok_iff).
-/

namespace Parlance.Folder

variable {folder folder' : Folder} {p : Path} {l k : Location} {name content : Text}

section Folders

/-- Trees with the same folders, seen from the same folder; their files may differ. -/
structure SameFolders (folder folder' : Folder) : Prop where
  here : folder.here = folder'.here
  folder_iff : ∀ l, folder.node? l = some .folder ↔ folder'.node? l = some .folder

theorem SameFolders.symm (h : SameFolders folder folder') : SameFolders folder' folder :=
  ⟨h.here.symm, fun l => (h.folder_iff l).symm⟩

theorem SameFolders.trans {folder'' : Folder} (h : SameFolders folder folder')
    (h' : SameFolders folder' folder'') : SameFolders folder folder'' :=
  ⟨h.here.trans h'.here, fun l => (h.folder_iff l).trans (h'.folder_iff l)⟩

theorem enter_eq_ok_iff :
    folder.enter l name = .ok k ↔
      name = around ∧ k = l.tail ∨
        name ≠ around ∧ ¬isTooLong name ∧ folder.node? (name :: l) = some .folder ∧
          k = name :: l := by
  rw [enter]
  split
  · next haround => simp [haround, @eq_comm _ k]
  · next haround =>
    split
    · next hlong => simp [haround, hlong]
    · next hlong =>
      cases hnode : folder.node? (name :: l) with
      | none => simp [haround]
      | some node => cases node <;> simp [haround, hlong, @eq_comm _ k]

theorem SameFolders.enter (h : SameFolders folder folder') (hok : folder.enter l name = .ok k) :
    folder'.enter l name = .ok k := by
  rw [enter_eq_ok_iff] at hok ⊢
  rwa [← h.folder_iff]

theorem SameFolders.foldlM_enter (h : SameFolders folder folder') {names : List Text}
    (hok : names.foldlM folder.enter l = .ok k) : names.foldlM folder'.enter l = .ok k := by
  induction names generalizing l with
  | nil => exact hok
  | cons name names ih =>
    rw [List.foldlM_cons] at hok ⊢
    obtain ⟨next, hnext, hrest⟩ := bind_eq_ok_iff.1 hok
    rw [h.enter hnext]
    exact ih hrest

/-- What it takes for a path to lead to a file of a name in a folder. -/
structure Leads (folder : Folder) (p : Path) (parent : Location) (name : Text) : Prop where
  whole : p.names.any (·.any (· = '\x00')) = false
  name?_eq : p.names.getLast? = some name
  parent_eq : p.names.dropLast.foldlM folder.enter (folder.start p) = .ok parent
  ne_around : name ≠ around
  fits : isTooLong name = false
  not_folder : folder.node? (name :: parent) ≠ some .folder

theorem resolve_eq_ok_iff :
    folder.resolve p = .ok l ↔ ∃ parent name, l = name :: parent ∧ Leads folder p parent name := by
  constructor
  · intro h
    rw [resolve] at h
    split at h
    · cases h
    · next hwhole =>
      split at h
      · cases h
      · next name hname =>
        obtain ⟨parent, hparent, h⟩ := bind_eq_ok_iff.1 h
        split at h
        · cases h
        · next haround =>
          split at h
          · cases h
          · next hlong =>
            split at h
            · cases h
            · next hfolder =>
              cases h
              exact ⟨parent, name, rfl, Bool.not_eq_true _ ▸ hwhole, hname, hparent, haround,
                Bool.not_eq_true _ ▸ hlong, hfolder⟩
  · rintro ⟨parent, name, rfl, h⟩
    rw [resolve, if_neg (Bool.not_eq_true _ ▸ h.whole), h.name?_eq]
    simp only [h.parent_eq]
    change (if name = around then _ else _) = _
    rw [if_neg h.ne_around, if_neg (Bool.not_eq_true _ ▸ h.fits), if_neg h.not_folder]
    rfl

theorem SameFolders.leads {parent : Location} (h : SameFolders folder folder')
    (hleads : Leads folder p parent name) : Leads folder' p parent name where
  whole := hleads.whole
  name?_eq := hleads.name?_eq
  parent_eq := by
    have hparent := h.foldlM_enter hleads.parent_eq
    rwa [start, h.here] at hparent
  ne_around := hleads.ne_around
  fits := hleads.fits
  not_folder := fun hfolder => hleads.not_folder ((h.folder_iff _).2 hfolder)

/-- Where a path leads depends on the folders only. -/
theorem SameFolders.resolve_eq_ok_iff (h : SameFolders folder folder') :
    folder.resolve p = .ok l ↔ folder'.resolve p = .ok l := by
  rw [Folder.resolve_eq_ok_iff, Folder.resolve_eq_ok_iff]
  constructor
  · rintro ⟨parent, name, hl, hleads⟩
    exact ⟨parent, name, hl, h.leads hleads⟩
  · rintro ⟨parent, name, hl, hleads⟩
    exact ⟨parent, name, hl, h.symm.leads hleads⟩

/-- A path leads to a file of its own name. -/
theorem head?_of_resolve (h : folder.resolve p = .ok l) : l.head? = p.name? := by
  obtain ⟨parent, name, rfl, hleads⟩ := resolve_eq_ok_iff.1 h
  exact hleads.name?_eq.symm

end Folders

section Files

theorem exists_write (hl : folder.resolve p = .ok l) (content : Text) :
    ∃ folder', folder.write p content = .ok folder' :=
  ⟨_, by rw [write, hl]; rfl⟩

/-- Writing puts a file where the path leads, and leaves all else. -/
theorem exists_of_write (h : folder.write p content = .ok folder') :
    ∃ l, folder.resolve p = .ok l ∧ SameFolders folder folder' ∧
      ∀ k, folder'.node? k = if k = l then some (.file content) else folder.node? k := by
  obtain ⟨l, hl, h⟩ := bind_eq_ok_iff.1 h
  cases h
  obtain ⟨parent, name, rfl, hleads⟩ := resolve_eq_ok_iff.1 hl
  have hnode (k : Location) :
      ({ folder with nodes := folder.nodes.insert (name :: parent) (.file content) } : Folder).node?
        k = if k = name :: parent then some (.file content) else folder.node? k := by
    cases k with
    | nil => rfl
    | cons first rest => exact OrderedMap.get?_insert folder.nodes _ _ _
  refine ⟨name :: parent, hl, ⟨rfl, fun k => ?_⟩, hnode⟩
  rw [hnode k]
  split
  · next hk => simpa [hk] using hleads.not_folder
  · exact Iff.rfl

theorem read_of_node? (hl : folder.resolve p = .ok l)
    (hnode : folder.node? l = some (.file content)) : folder.read p = .ok content := by
  simp only [read, hl, bind, Except.bind, hnode]
  rfl

theorem has_of_node? (hl : folder.resolve p = .ok l)
    (hnode : folder.node? l = some (.file content)) : folder.has p = .ok true := by
  rw [has, hl]
  simp only [hnode, Option.isSome_some]

theorem readLines_of_node? (hl : folder.resolve p = .ok l)
    (hnode : folder.node? l = some (.file content)) :
    folder.readLines p = .ok (evenLines content) := by
  rw [readLines, read_of_node? hl hnode]
  rfl

/-- Line ends are even where no carriage return stands. -/
theorem evenLines_of_not_mem {t : Text} (h : '\r' ∉ t) : evenLines t = t := by
  fun_induction evenLines t with
  | case1 => rfl
  | case2 rest => exact absurd List.mem_cons_self h
  | case3 rest => exact absurd List.mem_cons_self h
  | case4 c rest _ _ ih => rw [ih fun hmem => h (List.mem_cons_of_mem c hmem)]

end Files

end Parlance.Folder
