import RoutineLoader.Proofs.Disk.Changes

/-!
# Names in directories

`Names` says that a path stands for a name in a directory, whether or not anything has that name.
What such a path leads to is read off the entry of that name (`Names.resolve_eq_free`,
`Names.resolve_eq_taken`). Where at most a file stands, a write through the path writes that file
(`writeText_of_names`), and a file is moved there from another name (`rename_of_names`).

Whether a file can be written does not depend on its text (`writeText_dichotomy`), and a move from
one path to another succeeds if both lead to files (`exists_rename_of_isFile`).
-/

namespace RoutineLoader.Disk

variable {d d' : Disk} {ending : Ending} {links : Nat} {here dir dir' : Place}
  {name name' : String} {init rest segments : List String} {entry : Entry} {text : String}
  {modified : Instant} {destination : Destination} {p q : Path}

/-! ## The last segment -/

theorem not_isEnd_name (hname : IsName name) : ¬ isEnd [name] := by
  simp [isEnd, hname.1]

theorem LooksUp.toEntry (h : LooksUp ending name rest) : LooksUp .entry name segments :=
  ⟨h.isName, by simp, h.short⟩

/-- A walk that ends in a name goes to a directory first. -/
theorem Walks.of_concat (hname : IsName name) (hhere : d.Reached here)
    (h : Walks d ending links here (init ++ [name]) destination) :
    name.utf8ByteSize ≤ nameLimit ∧
      ∃ dir modified, Walks d .entry links here init (.taken dir (.directory modified)) := by
  generalize hsegments : init ++ [name] = segments at h
  have hinit : ∀ {here : Place} {links : Nat}, d.Reached here → ∃ dir modified,
      Walks d .entry links here [] (.taken dir (.directory modified)) := fun hhere =>
    let ⟨modified, h⟩ := isEnd_stays rfl hhere
    ⟨_, modified, h⟩
  -- Only the last segment is looked up with nothing behind it.
  have hlater : ∀ {init rest : List String}, init ++ [name] = rest → ¬ isEnd rest := by
    rintro init rest rfl
    exact not_isEnd_append (not_isEnd_name hname)
  induction h generalizing init with
  | stop => simp at hsegments
  | stay hstay _ ih =>
    cases init with
    | nil =>
      obtain ⟨rfl, -⟩ := List.cons.inj hsegments
      exact absurd hstay (by simp [hname.1, hname.2.1])
    | cons first init =>
      obtain ⟨rfl, hrest⟩ := List.cons.inj hsegments
      obtain ⟨hshort, dir, modified, h⟩ := ih hhere hrest
      exact ⟨hshort, dir, modified, .stay hstay h⟩
  | up _ ih =>
    cases init with
    | nil =>
      obtain ⟨rfl, -⟩ := List.cons.inj hsegments
      exact absurd rfl hname.2.2
    | cons first init =>
      obtain ⟨rfl, hrest⟩ := List.cons.inj hsegments
      obtain ⟨hshort, dir, modified, h⟩ := ih hhere.dropLast hrest
      exact ⟨hshort, dir, modified, .up h⟩
  | free hlooks _ _ hend =>
    cases init with
    | nil =>
      obtain ⟨rfl, -⟩ := List.cons.inj hsegments
      exact ⟨hlooks.short, hinit hhere⟩
    | cons first init => exact absurd hend (hlater (List.cons.inj hsegments).2)
  | enter hlooks hentry _ ih =>
    cases init with
    | nil =>
      obtain ⟨rfl, -⟩ := List.cons.inj hsegments
      exact ⟨hlooks.short, hinit hhere⟩
    | cons first init =>
      obtain ⟨rfl, hrest⟩ := List.cons.inj hsegments
      obtain ⟨hshort, dir, modified, h⟩ := ih (hhere.concat hentry) hrest
      exact ⟨hshort, dir, modified,
        .enter hlooks.toEntry hentry h⟩
  | @follow _ _ _ rest _ target hlooks hentry _ _ ih =>
    cases init with
    | nil =>
      obtain ⟨rfl, -⟩ := List.cons.inj hsegments
      exact ⟨hlooks.short, hinit hhere⟩
    | cons first init =>
      obtain ⟨rfl, hrest⟩ := List.cons.inj hsegments
      have hall : (segmentsOf ⟨target⟩ ++ init) ++ [name] = segmentsOf ⟨target⟩ ++ rest := by
        rw [← hrest, List.append_assoc]
        rfl
      obtain ⟨hshort, dir, modified, h⟩ := ih (hhere.linkBase target) hall
      exact ⟨hshort, dir, modified,
        .follow hlooks.toEntry hentry (fun h => nomatch h.1) h⟩
  | link hlooks _ _ hend =>
    cases init with
    | nil =>
      obtain ⟨rfl, -⟩ := List.cons.inj hsegments
      exact ⟨hlooks.short, hinit hhere⟩
    | cons first init => exact absurd hend (hlater (List.cons.inj hsegments).2)
  | file hlooks _ hend =>
    cases init with
    | nil =>
      obtain ⟨rfl, -⟩ := List.cons.inj hsegments
      exact ⟨hlooks.short, hinit hhere⟩
    | cons first init =>
      have hrest := hlater (List.cons.inj hsegments).2
      rcases hend with rfl | hend
      · exact absurd rfl hrest
      · exact absurd hend.2 hrest

/-- A walk to a file ends in a name. -/
theorem Walks.concat_of_file {place : Place} {text : Option String} (hhere : d.Reached here)
    (h : Walks d .entry links here segments (.taken place (.file text modified))) :
    ∃ init name, segments = init ++ [name] ∧ IsName name := by
  generalize hdestination : Destination.taken place (.file text modified) = destination at h
  have hcons : ∀ {segment : String} {rest : List String},
      (∃ init name, rest = init ++ [name] ∧ IsName name) →
      ∃ init name, segment :: rest = init ++ [name] ∧ IsName name := by
    rintro segment rest ⟨init, name, rfl, hname⟩
    exact ⟨segment :: init, name, rfl, hname⟩
  induction h with
  | stop links here =>
    obtain ⟨m, hentry⟩ := hhere here List.prefix_rfl
    rw [hentry] at hdestination
    cases hdestination
  | stay _ _ ih => exact hcons (ih hhere hdestination)
  | up _ ih => exact hcons (ih hhere.dropLast hdestination)
  | free => cases hdestination
  | enter _ hentry _ ih => exact hcons (ih (hhere.concat hentry) hdestination)
  | @follow _ _ name rest _ _ hlooks _ _ _ ih =>
    obtain ⟨init, last, hsegments, hlast⟩ := ih (hhere.linkBase _) hdestination
    -- The name is the last segment, unless segments are left behind the link.
    rcases List.eq_nil_or_concat rest with rfl | ⟨rest', last', rfl⟩
    · exact ⟨[], name, rfl, hlooks.isName⟩
    · rw [List.concat_eq_append] at hsegments ⊢
      rw [← List.append_assoc] at hsegments
      obtain ⟨-, rfl⟩ := List.append_singleton_inj.mp hsegments
      exact ⟨name :: rest', last', rfl, hlast⟩
  | link _ _ hending => cases hending
  | @file _ _ name _ _ _ hlooks _ hrest =>
    rcases hrest with rfl | hrest
    · exact ⟨[], name, rfl, hlooks.isName⟩
    · cases hrest.1

theorem getLast?_segments_iff :
    p.segments.getLast? = some [] ↔ p.text = "" ∨ endsInSeparator p := by
  unfold Path.segments endsInSeparator
  have hempty : p.text = "" ↔ p.text.toList = [] := by simp
  rw [hempty]
  generalize p.text.toList = text
  split
  · rename_i s
    rw [Text.getLast?_splitOn_iff]
    cases s <;> simp
  · rw [Text.getLast?_splitOn_iff]
    simp

/-- A path ends in a name and not in a separator exactly if its last segment is a name. -/
theorem endsInName_iff :
    endsInName p ∧ endsInSeparator p = false ↔
      ∃ init name, segmentsOf p = init ++ [name] ∧ IsName name := by
  have hne : segmentsOf p ≠ [] := by simp [segmentsOf, Path.segments_ne_nil p]
  obtain ⟨init, name, hsegments⟩ : ∃ init name, segmentsOf p = init ++ [name] :=
    ⟨_, _, (List.dropLast_concat_getLast hne).symm⟩
  have hempty : name = "" ↔ p.text = "" ∨ endsInSeparator p := by
    have hlast := congrArg List.getLast? hsegments
    rw [List.getLast?_concat, segmentsOf, List.getLast?_map, Option.map_eq_some_iff] at hlast
    obtain ⟨piece, hpiece, rfl⟩ := hlast
    rw [← getLast?_segments_iff, hpiece]
    simp
  have hends : name ≠ "" → (endsInName p ↔ name ≠ "." ∧ name ≠ "..") := by
    intro hname
    have hfirst : (name == "") = false := by simpa using hname
    rw [endsInName, hsegments, List.reverse_append, List.reverse_singleton, List.singleton_append,
      List.dropWhile_cons, hfirst]
    simp
  constructor
  · rintro ⟨hname, hseparator⟩
    have hsome : name ≠ "" := by
      rw [Ne, hempty, hseparator]
      rintro (htext | hfalse)
      · have hnone : endsInName p = false := by
          rw [show p = ⟨""⟩ from congrArg Path.mk htext]
          decide
        rw [hnone] at hname
        cases hname
      · cases hfalse
    exact ⟨init, name, hsegments, hsome, (hends hsome).mp hname⟩
  · rintro ⟨init', name', hsegments', hname⟩
    rw [hsegments] at hsegments'
    obtain ⟨-, rfl⟩ := List.append_singleton_inj.mp hsegments'
    refine ⟨(hends hname.1).mpr hname.2, ?_⟩
    rw [← Bool.not_eq_true]
    exact fun hseparator => hname.1 (hempty.mpr (Or.inr hseparator))

/-! ## Paths that stand for a name -/

/-- The path stands for a name in a directory, whether or not anything has that name. -/
structure Names (d : Disk) (p : Path) (dir : Place) (name : String) : Prop where
  traceable : Traceable p
  short : p.text.utf8ByteSize < pathLimit
  isName : IsName name
  nameShort : name.utf8ByteSize ≤ nameLimit
  leads : ∃ init modified, segmentsOf p = init ++ [name] ∧
    Walks d .entry linkLimit (d.start p) init (.taken dir (.directory modified))

theorem names_of_resolve (hd : d.Settled) (hsegments : segmentsOf p = init ++ [name])
    (hname : IsName name) (h : d.resolve ending p = .ok destination) :
    ∃ dir, d.Names p dir name := by
  obtain ⟨hshort, htrace⟩ := resolve_eq_ok_iff.mp h
  obtain ⟨htraceable, hwalk⟩ := trace_eq_ok_iff.mp htrace
  rw [hsegments] at hwalk
  obtain ⟨hnameShort, dir, modified, hinit⟩ := hwalk.of_concat hname (hd.start p).1
  exact ⟨dir, htraceable, hshort, hname, hnameShort, init, modified, hsegments, hinit⟩

/-- A path that differs from another one in its last segment only stands for a name in the same
directory. -/
theorem Names.sibling (hp : d.Names p dir name) (hq : d'.Names q dir' name')
    (habsolute : q.isAbsolute = p.isAbsolute) (hsegments : segmentsOf p = init ++ [name])
    (hsegments' : segmentsOf q = init ++ [name']) : d.Names q dir name' := by
  obtain ⟨initP, modified, hinit, hwalk⟩ := hp.leads
  obtain ⟨rfl, -⟩ := List.append_singleton_inj.mp (hsegments.symm.trans hinit)
  have hstart : d.start p = d.start q := by rw [Disk.start, Disk.start, habsolute]
  rw [hstart] at hwalk
  exact ⟨hq.traceable, hq.short, hq.isName, hq.nameShort, init, modified, hsegments', hwalk⟩

theorem Names.keeps (h : d.Names p dir name) (hd : d.Settled) (hkeeps : d.Keeps d') :
    d'.Names p dir name := by
  obtain ⟨init, modified, hsegments, hwalk⟩ := h.leads
  obtain ⟨modified', hwalk'⟩ := hwalk.keeps hkeeps (hd.start p).1
  rw [← hkeeps.start p] at hwalk'
  exact ⟨h.traceable, h.short, h.isName, h.nameShort, init, modified', hsegments, hwalk'⟩

/-- A path stands for one name in one directory. -/
theorem Names.unique (h : d.Names p dir name) (h' : d.Names p dir' name') :
    dir = dir' ∧ name = name' := by
  obtain ⟨init, _, hsegments, hwalk⟩ := h.leads
  obtain ⟨init', _, hsegments', hwalk'⟩ := h'.leads
  obtain ⟨rfl, rfl⟩ := List.append_singleton_inj.mp (hsegments.symm.trans hsegments')
  exact ⟨(Destination.taken.inj (hwalk.unique hwalk')).1, rfl⟩

/-- What happens to the name is what happens at the end of the path. -/
theorem Names.resolve (h : d.Names p dir name)
    (hwalk : ∀ links, Walks d ending links dir [name] destination) :
    d.resolve ending p = .ok destination := by
  obtain ⟨init, modified, hsegments, hinit⟩ := h.leads
  obtain ⟨left, hleft⟩ := hinit.append
  refine resolve_eq_ok_iff.mpr ⟨h.short, trace_eq_ok_iff.mpr ⟨h.traceable, ?_⟩⟩
  rw [hsegments]
  exact hleft (not_isEnd_name h.isName) (hwalk left)

theorem Names.looksUp (h : d.Names p dir name) : LooksUp ending name [] :=
  ⟨h.isName, by simp, h.nameShort⟩

theorem Names.resolve_eq_free (h : d.Names p dir name) (hentry : d.entry? (dir ++ [name]) = none)
    (hending : ending ≠ .entry) : d.resolve ending p = .ok (.free (dir ++ [name])) :=
  h.resolve fun _ => .free h.looksUp hentry hending rfl

theorem Names.resolve_eq_taken (h : d.Names p dir name)
    (hentry : d.entry? (dir ++ [name]) = some entry) (hlink : ∀ target, entry ≠ .link target) :
    d.resolve ending p = .ok (.taken (dir ++ [name]) entry) := by
  refine h.resolve fun links => ?_
  cases entry with
  | file text modified => exact .file h.looksUp hentry (Or.inl rfl)
  | directory modified =>
    have hstop := @Walks.stop d ending links (dir ++ [name])
    rw [hentry] at hstop
    exact .enter h.looksUp hentry hstop
  | link target => exact absurd rfl (hlink target)

/-- The entry of that name is found if its link is not followed. -/
theorem Names.resolve_name_eq_taken (h : d.Names p dir name)
    (hentry : d.entry? (dir ++ [name]) = some entry) :
    d.resolve .name p = .ok (.taken (dir ++ [name]) entry) := by
  cases entry with
  | link target => exact h.resolve fun _ => .link h.looksUp hentry rfl rfl
  | file => exact h.resolve_eq_taken hentry (by simp)
  | directory => exact h.resolve_eq_taken hentry (by simp)

/-- Where its last link is not followed, the path comes to the name. -/
theorem Names.resolve_name (h : d.Names p dir name) : d.resolve .name p =
    .ok ((d.entry? (dir ++ [name])).elim (.free (dir ++ [name])) (.taken (dir ++ [name]))) := by
  cases hentry : d.entry? (dir ++ [name]) with
  | none => exact h.resolve_eq_free hentry (by decide)
  | some entry => exact h.resolve_name_eq_taken hentry

/-- A path that comes to the same on another disk, its last link not followed, stands for the same
name there, and the name has the same entry. -/
theorem Names.of_resolve_eq (h : d.Names p dir name) (hd' : d'.Settled)
    (hsame : d'.resolve .name p = d.resolve .name p) :
    d'.Names p dir name ∧ d'.entry? (dir ++ [name]) = d.entry? (dir ++ [name]) := by
  obtain ⟨init, _, hsegments, -⟩ := h.leads
  rw [h.resolve_name] at hsame
  obtain ⟨dir', h'⟩ := names_of_resolve hd' hsegments h.isName hsame
  rw [h'.resolve_name, Except.ok.injEq] at hsame
  obtain rfl : dir' = dir := by
    have hplace := congrArg Destination.place hsame
    revert hplace
    cases d.entry? (dir ++ [name]) <;> cases d'.entry? (dir' ++ [name]) <;>
      simp [Destination.place]
  refine ⟨h', ?_⟩
  revert hsame
  cases d.entry? (dir' ++ [name]) <;> cases d'.entry? (dir' ++ [name]) <;> simp

theorem Names.isLink {target : String} (h : d.Names p dir name)
    (hentry : d.entry? (dir ++ [name]) = some (.link target)) : d.IsLink p target :=
  ⟨dir ++ [name], (resolve_eq_ok_iff.mp (h.resolve_name_eq_taken hentry)).2⟩

theorem Names.endsInName (h : d.Names p dir name) :
    endsInName p ∧ endsInSeparator p = false := by
  obtain ⟨init, _, hsegments, -⟩ := h.leads
  exact endsInName_iff.mpr ⟨init, name, hsegments, h.isName⟩

/-- A path to a file stands for the name of that file or of a link. -/
theorem names_of_locate_file {place : Place} {text : Option String} (hd : d.Settled)
    (h : d.locate p = .ok (place, .file text modified)) :
    ∃ dir name entry, d.Names p dir name ∧ d.entry? (dir ++ [name]) = some entry ∧
      ∀ modified, entry ≠ .directory modified := by
  have hresolve := locate_eq_ok_iff.mp h
  obtain ⟨hshort, htrace⟩ := resolve_eq_ok_iff.mp hresolve
  obtain ⟨htraceable, hwalk⟩ := trace_eq_ok_iff.mp htrace
  obtain ⟨init, name, hsegments, hname⟩ := hwalk.concat_of_file (hd.start p).1
  obtain ⟨dir, hp⟩ := names_of_resolve hd hsegments hname hresolve
  cases hentry : d.entry? (dir ++ [name]) with
  | none =>
    obtain ⟨_, _, hwalk'⟩ := hwalk.name_of_entry
    have htaken := resolve_eq_ok_iff.mpr ⟨hshort, trace_eq_ok_iff.mpr ⟨htraceable, hwalk'⟩⟩
    cases (hp.resolve_eq_free hentry (by decide)).symm.trans htaken
  | some entry =>
    refine ⟨dir, name, entry, hp, hentry, ?_⟩
    rintro m rfl
    cases (hp.resolve_eq_taken hentry (by simp)).symm.trans hresolve

/-! ## Writing and moving -/

/-- A write succeeds where at most a file stands, and puts the file there. -/
theorem writeText_of_names (h : d.Names p dir name) (hfile : d.AtMostFile (dir ++ [name]))
    (text : String) :
    d.writeText p text = .ok (d.put (dir ++ [name]) (.file (some text) d.now)) := by
  cases hentry : d.entry? (dir ++ [name]) with
  | none => rw [writeText, h.resolve_eq_free hentry (by decide)]
  | some entry =>
    obtain ⟨old, modified, rfl⟩ := hfile entry hentry
    rw [writeText, h.resolve_eq_taken hentry (by simp)]

theorem resolve_of_writeText (h : d.writeText p text = .ok d') :
    ∃ destination, d.resolve .file p = .ok destination := by
  unfold writeText at h
  split at h
  · exact ⟨_, ‹_›⟩
  · exact ⟨_, ‹_›⟩
  · exact ⟨_, ‹_›⟩
  · cases h

/-- Either no text can be written to a path, for one reason, or any text comes to one place, where
at most a file stands. -/
theorem writeText_dichotomy (hd : d.Settled) (p : Path) :
    (∃ e, ∀ text, d.writeText p text = .error e) ∨
      ∃ destination, d.resolve .file p = .ok destination ∧
        d.AtMostFile (Destination.place destination) ∧
        ∀ text, d.writeText p text =
          .ok (d.put (Destination.place destination) (.file (some text) d.now)) := by
  unfold writeText
  rcases hresolve : d.resolve .file p with e | ⟨place, entry⟩ | place
  · exact Or.inl ⟨e, fun _ => rfl⟩
  · cases entry with
    | file old modified =>
      exact Or.inr ⟨_, rfl, atMostFile_of_file (lookup_of_resolve hd hresolve), fun _ => rfl⟩
    | directory => exact Or.inl ⟨.isDirectory, fun _ => rfl⟩
    | link => exact Or.inl ⟨.isDirectory, fun _ => rfl⟩
  · have hwalk := (trace_eq_ok_iff.mp (resolve_eq_ok_iff.mp hresolve).2).2
    have hfree := hwalk.lookup_of_free (hd.start p).1
    exact Or.inr ⟨_, rfl, atMostFile_of_none hfree, fun _ => rfl⟩

/-- Where a write succeeds at a path that is no link, at most a file stands. -/
theorem atMostFile_of_writeText (h : d.Names p dir name) (hlink : ∀ target, ¬ d.IsLink p target)
    (hwrite : d.writeText p text = .ok d') : d.AtMostFile (dir ++ [name]) := by
  intro entry hentry
  cases entry with
  | file old modified => exact ⟨old, modified, rfl⟩
  | directory modified =>
    rw [writeText, h.resolve_eq_taken hentry (by simp)] at hwrite
    cases hwrite
  | link target => exact absurd (h.isLink hentry) (hlink target)

/-- A file is moved to a place where at most a file stands. -/
theorem rename_of_names (hp : d.Names p dir name) (hq : d.Names q dir' name')
    (hentry : d.entry? (dir ++ [name]) = some (.file (some text) modified))
    (hfile : d.AtMostFile (dir' ++ [name'])) :
    d.rename p q = .ok ((d.eraseWhere (· == dir ++ [name])).put (dir' ++ [name'])
      (.file (some text) modified)) := by
  obtain ⟨hnameP, hseparatorP⟩ := hp.endsInName
  obtain ⟨hnameQ, hseparatorQ⟩ := hq.endsInName
  rw [rename, hp.resolve_eq_taken hentry (by simp)]
  cases htarget : d.entry? (dir' ++ [name']) with
  | none =>
    rw [hq.resolve_eq_free htarget (by decide)]
    simp [hnameP, hnameQ, hseparatorP, hseparatorQ]
  | some entry =>
    obtain ⟨old, modified', rfl⟩ := hfile entry htarget
    rw [hq.resolve_eq_taken htarget (by simp)]
    simp [hnameP, hnameQ, hseparatorP, hseparatorQ]

/-- A file that is moved comes under the name that its new path stands for. -/
theorem eq_of_rename {content : Option String} (hp : d.Names p dir name) (hq : d.Names q dir' name')
    (hentry : d.entry? (dir ++ [name]) = some (.file content modified))
    (h : d.rename p q = .ok d') :
    d' = (d.eraseWhere (· == dir ++ [name])).put (dir' ++ [name']) (.file content modified) := by
  obtain ⟨hnameP, hseparatorP⟩ := hp.endsInName
  obtain ⟨hnameQ, hseparatorQ⟩ := hq.endsInName
  rw [rename, hp.resolve_name_eq_taken hentry] at h
  cases htarget : d.entry? (dir' ++ [name']) with
  | none =>
    rw [hq.resolve_eq_free htarget (by decide)] at h
    simpa [hnameP, hnameQ, hseparatorP, hseparatorQ] using h.symm
  | some entry =>
    rw [hq.resolve_name_eq_taken htarget] at h
    cases entry <;> simp [hnameP, hnameQ, hseparatorP, hseparatorQ] at h <;> exact h.symm

theorem isFile_iff : d.isFile p = true ↔
    ∃ place text modified, d.locate p = .ok (place, .file text modified) := by
  unfold isFile
  constructor
  · intro h
    split at h
    · exact ⟨_, _, _, ‹_›⟩
    · cases h
  · rintro ⟨place, text, modified, hlocate⟩
    rw [hlocate]

/-- After a write the path leads to a file, and so does every path that led to one. -/
theorem isFile_of_writeText (hd : d.Settled) (h : d.writeText p text = .ok d') :
    d.Keeps d' ∧ d'.isFile p ∧ ∀ q, d.isFile q → d'.isFile q := by
  rcases writeText_dichotomy hd p with ⟨e, hwrite⟩ | ⟨destination, hresolve, hplace, hwrite⟩
  · cases (hwrite text).symm.trans h
  obtain rfl := Except.ok.inj ((hwrite text).symm.trans h)
  have hkeeps := hplace.keeps_put (.file (some text) d.now)
  have hentry : ∀ place, entry? (d.put (Destination.place destination)
      (.file (some text) d.now)) place = if place = Destination.place destination then
        some (.file (some text) d.now) else d.entry? place := fun place =>
    lookup_put hplace.ne_nil
  refine ⟨hkeeps, ?_, fun q hq => ?_⟩
  · exact isFile_iff.mpr ⟨_, _, _, locate_of_file hd (by decide) hkeeps
      ((hentry _).trans (if_pos rfl)) rfl hresolve⟩
  · obtain ⟨place, old, modified, hlocate⟩ := isFile_iff.mp hq
    obtain ⟨new, modified', hfile⟩ : ∃ new modified', entry? (d.put (Destination.place destination)
        (.file (some text) d.now)) place = some (.file new modified') := by
      rw [hentry]
      split
      · exact ⟨_, _, rfl⟩
      · exact ⟨_, _, lookup_of_locate hd hlocate⟩
    exact isFile_iff.mpr ⟨_, _, _, locate_of_file hd (by decide) hkeeps hfile rfl
      (locate_eq_ok_iff.mp hlocate)⟩

/-- A path to which a text can be written ends in a name. -/
theorem names_of_writeText (hd : d.Settled) (h : d.writeText p text = .ok d') :
    ∃ dir name, d.Names p dir name := by
  obtain ⟨hkeeps, hfile, -⟩ := isFile_of_writeText hd h
  obtain ⟨_, _, _, hlocate⟩ := isFile_iff.mp hfile
  have htrace := (resolve_eq_ok_iff.mp (locate_eq_ok_iff.mp hlocate)).2
  have hwalk := (trace_eq_ok_iff.mp htrace).2
  obtain ⟨init, name, hsegments, hname⟩ := hwalk.concat_of_file ((hkeeps.settled hd).start p).1
  obtain ⟨_, hresolve⟩ := resolve_of_writeText h
  obtain ⟨dir, hnames⟩ := names_of_resolve hd hsegments hname hresolve
  exact ⟨dir, name, hnames⟩

/-- Where both paths lead to files, the one is moved onto the other. -/
theorem exists_rename_of_isFile (hd : d.Settled) (hp : d.isFile p) (hq : d.isFile q) :
    ∃ d', d.rename p q = .ok d' := by
  obtain ⟨_, _, _, hp⟩ := isFile_iff.mp hp
  obtain ⟨_, _, _, hq⟩ := isFile_iff.mp hq
  obtain ⟨_, _, moved, hp, hmoved, hnot⟩ := names_of_locate_file hd hp
  obtain ⟨_, _, target, hq, htarget, hnot'⟩ := names_of_locate_file hd hq
  obtain ⟨hnameP, hseparatorP⟩ := hp.endsInName
  obtain ⟨hnameQ, hseparatorQ⟩ := hq.endsInName
  rw [rename, hp.resolve_name_eq_taken hmoved, hq.resolve_name_eq_taken htarget]
  simp only [hnameP, hnameQ, hseparatorP, hseparatorQ, Bool.and_self, Bool.not_true, Bool.or_self,
    Bool.false_eq_true, if_false]
  cases target with
  | directory m => exact absurd rfl (hnot' m)
  | file | link =>
    cases moved with
    | directory m => exact absurd rfl (hnot m)
    | file | link => exact ⟨_, rfl⟩

/-- A move that succeeds is between names, and its target is no directory. -/
theorem endsInName_of_rename (h : d.rename p q = .ok d') :
    (endsInName p ∧ endsInSeparator p = false) ∧ (endsInName q ∧ endsInSeparator q = false) ∧
      ∃ destination, d.resolve .name q = .ok destination ∧
        ∀ place modified, destination ≠ .taken place (.directory modified) := by
  unfold rename at h
  split at h
  · cases h
  · cases h
  · cases h
  · rename_i hq
    split at h
    · cases h
    · rename_i hnames
      split at h
      · cases h
      · rename_i hseparators
        simp only [Bool.not_eq_true, Bool.not_eq_false', Bool.and_eq_true, Bool.or_eq_true,
          not_or] at hnames hseparators
        refine ⟨⟨hnames.1, hseparators.1⟩, ⟨hnames.2, hseparators.2⟩, _, hq, ?_⟩
        intro place modified hdestination
        split at h
        · cases h
        · cases h
        · rename_i hnot _
          cases hdestination
          exact hnot modified rfl
        · cases hdestination

end RoutineLoader.Disk
