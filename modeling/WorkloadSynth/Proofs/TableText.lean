import Mathlib
import WorkloadSynth.Csv.Row
import WorkloadSynth.Csv.Writer

/-!
# Table files are read back

A scanner that stands at the beginning of a field reads whatever the writer makes of a field, quoted
or not, and stands at its end then (`Scan.exists_passes_field`).  Fields make records, and records
make files: a file of records is read as these records (`fields_records_write`).  A row whose fields
are read as cells gives the cells of all columns (`readNamed_of_reads`), and a table of such rows is
read row by row (`readTable_write`).
-/

namespace WorkloadSynth

/-! ## §1 — texts -/

/-- The bytes of a text spell it. -/
theorem Utf8.decode_encode (s : String) : Utf8.decode (Utf8.encode s) = some s := by
  show String.fromUTF8? s.toByteArray = some s
  unfold String.fromUTF8?
  rw [dif_pos s.isValidUTF8]
  rfl

namespace Csv

/-! ## §2 — one field -/

namespace Scan

/-- Where a scanner stands in a record. -/
structure At (s : Scan) (mode : Mode) (field : Bytes) (fields : List Bytes) : Prop where
  mode : s.mode = mode
  field : s.field = field
  fields : s.fields = fields

/-- Bytes that a scanner moves past without ending a record. -/
def Passes (s : Scan) (bytes : Bytes) (s' : Scan) : Prop :=
  ∀ rest, s.run (bytes ++ rest) = s'.run rest

variable {s s' s'' : Scan} {mode : Mode} {b : UInt8} {field bytes more : Bytes}
  {fields : List Bytes}

theorem Passes.refl (s : Scan) : s.Passes [] s := fun _ => rfl

theorem Passes.trans (h : s.Passes bytes s') (h' : s'.Passes more s'') :
    s.Passes (bytes ++ more) s'' := by
  intro rest
  rw [List.append_assoc, h, h']

theorem passes_of_step (h : s.step b = (none, s')) : s.Passes [b] s' := by
  intro rest
  rw [List.singleton_append, run, h]

/-- A byte without a meaning of its own is put to the field. -/
theorem step_ordinary (h : s.At mode field fields)
    (hmode : mode = .betweenRecords ∨ mode = .fieldStart ∨ mode = .unquoted)
    (hb : needsQuotes b = false) :
    ∃ s', s.step b = (none, s') ∧ s'.At .unquoted (b :: field) fields := by
  obtain ⟨hcomma, hquote, hend⟩ : b ≠ comma ∧ b ≠ quote ∧ endsRecord b = false := by
    simpa [needsQuotes, and_assoc] using hb
  refine ⟨(s.pass b).push .unquoted b, ?_, rfl, congrArg (b :: ·) h.field, h.fields⟩
  have hplain : s.plainByte b = (none, (s.pass b).push .unquoted b) := by
    unfold plainByte
    rw [if_neg hcomma, hend, if_neg Bool.false_ne_true]
  have hfirst : s.firstByte b = (none, (s.pass b).push .unquoted b) := by
    unfold firstByte
    rw [if_neg hquote, hplain]
  unfold step
  rw [h.mode]
  rcases hmode with rfl | rfl | rfl
  · dsimp only
    rw [hend, if_neg Bool.false_ne_true, hfirst]
  · exact hfirst
  · exact hplain

/-- A field without quotes. -/
theorem exists_passes_ordinary (hb : ∀ b ∈ bytes, needsQuotes b = false)
    (h : s.At mode field fields)
    (hmode : mode = .betweenRecords ∨ mode = .fieldStart ∨ mode = .unquoted) :
    ∃ s', s.Passes bytes s' ∧
      s'.At (if bytes = [] then mode else .unquoted) (bytes.reverse ++ field) fields := by
  induction bytes generalizing s mode field with
  | nil => exact ⟨s, .refl s, h⟩
  | cons b bytes ih =>
    obtain ⟨s₁, hstep, h₁⟩ := step_ordinary h hmode (hb b List.mem_cons_self)
    obtain ⟨s', hpass, h'⟩ := ih (fun a ha => hb a (List.mem_cons_of_mem b ha)) h₁ (.inr (.inr rfl))
    refine ⟨s', (passes_of_step hstep).trans hpass, ?_⟩
    rw [ite_self] at h'
    rw [if_neg (List.cons_ne_nil b bytes), List.reverse_cons, List.append_assoc]
    exact h'

/-- The inside of a quoted field. -/
theorem exists_passes_quoted (bytes : Bytes) (h : s.At .inQuotes field fields) :
    ∃ s', s.Passes (doubleQuotes bytes) s' ∧ s'.At .inQuotes (bytes.reverse ++ field) fields := by
  induction bytes generalizing s field with
  | nil => exact ⟨s, .refl s, h⟩
  | cons b bytes ih =>
    obtain ⟨s₁, hpass, h₁⟩ : ∃ s₁, s.Passes (if b = quote then [quote, quote] else [b]) s₁ ∧
        s₁.At .inQuotes (b :: field) fields := by
      by_cases hb : b = quote
      -- the first of two quotes could be the end, the second says that it is not
      · rw [if_pos hb, hb]
        have hfirst : s.step quote = (none, { s.pass quote with mode := .afterQuote }) := by
          unfold step
          rw [h.mode]
          rfl
        have hsecond : step { s.pass quote with mode := .afterQuote } quote =
            (none, (pass { s.pass quote with mode := .afterQuote } quote).push .inQuotes quote) :=
          rfl
        exact ⟨_, (passes_of_step hfirst).trans (passes_of_step hsecond), rfl,
          congrArg (quote :: ·) h.field, h.fields⟩
      · rw [if_neg hb]
        refine ⟨(s.pass b).push .inQuotes b, passes_of_step ?_, rfl, congrArg (b :: ·) h.field,
          h.fields⟩
        unfold step
        rw [h.mode]
        exact if_neg hb
    obtain ⟨s', hpass', h'⟩ := ih h₁
    refine ⟨s', hpass.trans hpass', ?_⟩
    rw [List.reverse_cons, List.append_assoc]
    exact h'

/-- **A written field is read.** Only an empty field leaves the scanner where it stood. -/
theorem exists_passes_field (bytes : Bytes) (h : s.At mode [] fields)
    (hmode : mode = .betweenRecords ∨ mode = .fieldStart) :
    ∃ s' mode', s.Passes (writeField bytes) s' ∧ s'.At mode' bytes.reverse fields ∧
      mode' ≠ .inQuotes ∧ (mode' = .betweenRecords → mode = .betweenRecords ∧ bytes = []) := by
  unfold writeField
  by_cases hany : bytes.any needsQuotes = true
  · rw [if_pos hany]
    have hopen : s.step quote = (none, { s.pass quote with mode := .inQuotes }) := by
      unfold step
      rw [h.mode]
      rcases hmode with rfl | rfl
      · rfl
      · rfl
    have hinside : At { s.pass quote with mode := .inQuotes } .inQuotes [] fields :=
      ⟨rfl, h.field, h.fields⟩
    obtain ⟨s₁, hpass, h₁⟩ := exists_passes_quoted bytes hinside
    have hclose : s₁.step quote = (none, { s₁.pass quote with mode := .afterQuote }) := by
      unfold step
      rw [h₁.mode]
      rfl
    refine ⟨{ s₁.pass quote with mode := .afterQuote }, .afterQuote,
      (passes_of_step hopen).trans (hpass.trans (passes_of_step hclose)), ⟨rfl, ?_, h₁.fields⟩,
      by decide, nofun⟩
    exact h₁.field.trans (List.append_nil _)
  · rw [if_neg hany]
    have hb : ∀ b ∈ bytes, needsQuotes b = false := by
      intro b hb
      exact Bool.eq_false_of_not_eq_true fun h => hany (List.any_eq_true.mpr ⟨b, hb, h⟩)
    obtain ⟨s', hpass, h'⟩ := exists_passes_ordinary hb h (hmode.imp_right .inl)
    rw [List.append_nil] at h'
    refine ⟨s', _, hpass, h', ?_, ?_⟩
    · by_cases hnil : bytes = []
      · rw [if_pos hnil]
        rcases hmode with rfl | rfl
        · decide
        · decide
      · rw [if_neg hnil]
        decide
    · intro hbetween
      by_cases hnil : bytes = []
      · rw [if_pos hnil] at hbetween
        exact ⟨hbetween, hnil⟩
      · rw [if_neg hnil] at hbetween
        cases hbetween

/-! ## §3 — records -/

theorem step_comma (h : s.At mode field fields) (hmode : mode ≠ .inQuotes) :
    ∃ s', s.step comma = (none, s') ∧ s'.At .fieldStart [] (field.reverse :: fields) := by
  refine ⟨(s.pass comma).endField, ?_, rfl, rfl, ?_⟩
  · unfold step
    rw [h.mode]
    cases mode with
    | inQuotes => exact absurd rfl hmode
    | betweenRecords => rfl
    | fieldStart => rfl
    | unquoted => rfl
    | afterQuote => rfl
  · rw [← h.field, ← h.fields]
    rfl

theorem step_lineFeed (h : s.At mode field fields) (hmode : mode ≠ .inQuotes)
    (hmode' : mode ≠ .betweenRecords) :
    ∃ r s', s.step lineFeed = (some r, s') ∧ r.fields = (field.reverse :: fields).reverse ∧
      s'.At .betweenRecords [] [] := by
  refine ⟨(s.pass lineFeed).endRecord.1, (s.pass lineFeed).endRecord.2, ?_, ?_, rfl, rfl, rfl⟩
  · unfold step
    rw [h.mode]
    cases mode with
    | inQuotes => exact absurd rfl hmode
    | betweenRecords => exact absurd rfl hmode'
    | fieldStart => rfl
    | unquoted => rfl
    | afterQuote => rfl
  · rw [← h.field, ← h.fields]
    rfl

/-- **A written record is read.** One that consists of an empty field is an empty line, and is not
counted as a record. -/
theorem exists_run_record (first : Bytes) (others : List Bytes) (h : s.At mode [] fields)
    (hmode : mode = .betweenRecords ∨ mode = .fieldStart)
    (hline : mode = .betweenRecords → first ≠ [] ∨ others ≠ []) :
    ∃ (r : Record) (s' : Scan), (∀ rest, s.run (writeRecord (first :: others) ++ rest) = r :: s'.run rest) ∧
      r.fields = fields.reverse ++ first :: others ∧ s'.At .betweenRecords [] [] := by
  obtain ⟨s₁, mode₁, hpass, h₁, hquotes, hbetween⟩ := exists_passes_field first h hmode
  induction others generalizing s mode first fields s₁ mode₁ with
  | nil =>
    have hnot : mode₁ ≠ .betweenRecords := by
      intro heq
      obtain ⟨hm, hnil⟩ := hbetween heq
      rcases hline hm with h | h
      · exact h hnil
      · exact h rfl
    obtain ⟨r, s', hstep, hr, h'⟩ := step_lineFeed h₁ hquotes hnot
    refine ⟨r, s', ?_, ?_, h'⟩
    · intro rest
      show s.run (writeField first ++ [lineFeed] ++ rest) = _
      rw [List.append_assoc, hpass]
      rw [List.singleton_append, run, hstep]
    · rw [hr, List.reverse_reverse, List.reverse_cons]
  | cons second others ih =>
    obtain ⟨s₂, hstep, h₂⟩ := step_comma h₁ hquotes
    rw [List.reverse_reverse] at h₂
    obtain ⟨s₃, mode₃, hpass₃, h₃, hquotes₃, hbetween₃⟩ :=
      exists_passes_field second h₂ (.inr rfl)
    obtain ⟨r, s', hrun, hr, h'⟩ :=
      ih second h₂ (.inr rfl) nofun s₃ mode₃ hpass₃ h₃ hquotes₃ hbetween₃
    refine ⟨r, s', ?_, ?_, h'⟩
    · intro rest
      show s.run (writeField first ++ comma :: joinFields (second :: others) ++ [lineFeed] ++ rest)
        = _
      rw [List.append_assoc, List.append_assoc, hpass]
      have hcomma := passes_of_step hstep
      rw [List.cons_append, ← List.singleton_append, hcomma, ← List.append_assoc]
      exact hrun rest
    · rw [hr, List.reverse_cons, List.append_assoc]
      rfl

end Scan

/-- A record that is not an empty line. -/
def IsLine (fields : List Bytes) : Prop := fields ≠ [] ∧ fields ≠ [[]]

/-- The records that follow are read one by one. -/
theorem fields_run_records {s : Scan} (h : s.At .betweenRecords [] []) {rs : List (List Bytes)}
    (hrs : ∀ fields ∈ rs, IsLine fields) :
    (s.run (rs.flatMap writeRecord)).map (·.fields) = rs := by
  induction rs generalizing s with
  | nil =>
    show (s.finish).map (·.fields) = []
    unfold Scan.finish
    rw [h.mode]
    rfl
  | cons fields rs ih =>
    obtain ⟨hne, hline⟩ := hrs fields List.mem_cons_self
    obtain ⟨first, others, rfl⟩ := List.exists_cons_of_ne_nil hne
    have hline' : first ≠ [] ∨ others ≠ [] := by
      by_contra hnot
      obtain ⟨hfirst, hothers⟩ := not_or.mp hnot
      exact hline (by rw [not_not.mp hfirst, not_not.mp hothers])
    obtain ⟨r, s', hrun, hr, h'⟩ := Scan.exists_run_record first others h (.inl rfl) fun _ => hline'
    rw [List.flatMap_cons, hrun, List.map_cons, hr,
      ih h' fun fields hf => hrs fields (List.mem_cons_of_mem _ hf)]
    rfl

/-! ## §4 — files -/

/-- Records that make up a file: none is an empty line, and the first does not begin like a byte
order mark. -/
structure Writable (rows : List (List String)) : Prop where
  isLine : ∀ row ∈ rows, IsLine (row.map Utf8.encode)
  noMark : (write rows).head? ≠ some 0xef

/-- **A file of records is read as these records.** -/
theorem fields_records_write {rows : List (List String)} (h : Writable rows) :
    (records (write rows)).map (·.fields) = rows.map (·.map Utf8.encode) := by
  have hmark : records (write rows) = (Scan.initial 0).run (write rows) := by
    have hhead := h.noMark
    unfold records
    split
    · next heq =>
      rw [heq] at hhead
      exact absurd rfl hhead
    · rfl
  have hwrite : write rows = (rows.map (·.map Utf8.encode)).flatMap writeRecord := by
    unfold write
    rw [List.flatMap_map]
  rw [hmark, hwrite]
  apply fields_run_records ⟨rfl, rfl, rfl⟩
  intro fields hfields
  obtain ⟨row, hrow, rfl⟩ := List.mem_map.mp hfields
  exact h.isLine row hrow

/-- Rows of two or more fields make up a file, as long as the header does not begin like a byte order
mark. -/
theorem writable_of_width {names : List String} {rows : List (List String)} (width : Nat)
    (htwo : 2 ≤ width) (hwidth : ∀ row ∈ names :: rows, row.length = width)
    (hmark : (writeRecord (names.map Utf8.encode)).head? ≠ some 0xef) :
    Writable (names :: rows) := by
  refine ⟨?_, ?_⟩
  · intro row hrow
    have hlength : (row.map Utf8.encode).length = width := by
      rw [List.length_map, hwidth row hrow]
    refine ⟨ne_of_apply_ne List.length ?_, ne_of_apply_ne List.length ?_⟩
    · rw [hlength, List.length_nil]
      omega
    · rw [hlength, List.length_singleton]
      omega
  · unfold write
    -- the header ends in a line feed, so it is not empty
    have hne : writeRecord (names.map Utf8.encode) ≠ [] := by
      unfold writeRecord
      exact List.append_ne_nil_of_right_ne_nil _ (List.cons_ne_nil _ _)
    rw [List.flatMap_cons, List.head?_append_of_ne_nil _ hne]
    exact hmark

/-- A traversal without failures. -/
theorem mapM_eq_ok {ε α β : Type} {f : α → Except ε β} {xs : List α} {ys : List β}
    (h : List.Forall₂ (fun x y => f x = .ok y) xs ys) : xs.mapM f = .ok ys := by
  induction h with
  | nil => rfl
  | cons hx _ ih =>
    rw [List.mapM_cons, hx, ih]
    rfl

/-- Fields that are texts are read as these texts. -/
theorem texts_of_fields {r : Record} {row : List String} (h : r.fields = row.map Utf8.encode) :
    r.texts = .ok row := by
  unfold Record.texts
  rw [h]
  apply mapM_eq_ok
  clear h
  generalize 0 = k
  induction row generalizing k with
  | nil => exact .nil
  | cons s row ih =>
    rw [List.map_cons, List.zipIdx_cons]
    refine .cons ?_ (ih (k + 1))
    dsimp only
    rw [Utf8.decode_encode]

/-- The table of a file: its header, and a record for each row. -/
theorem exists_table_write {names : List String} {rows : List (List String)}
    (h : Writable (names :: rows)) :
    ∃ header lines, Table.ofBytes (write (names :: rows)) = ⟨header, lines⟩ ∧
      header.fields = names.map Utf8.encode ∧
      lines.map (·.fields) = rows.map (·.map Utf8.encode) := by
  have hrecords := fields_records_write h
  unfold Table.ofBytes
  cases hread : records (write (names :: rows)) with
  | nil => rw [hread] at hrecords; cases hrecords
  | cons header lines =>
    rw [hread, List.map_cons, List.map_cons] at hrecords
    obtain ⟨hheader, hlines⟩ := List.cons.inj hrecords
    exact ⟨header, lines, rfl, hheader, hlines⟩

/-- The header of a file is read. -/
theorem header_texts_write {names : List String} {rows : List (List String)}
    (h : Writable (names :: rows)) :
    (Table.ofBytes (write (names :: rows))).header.texts = .ok names := by
  obtain ⟨header, lines, htable, hheader, -⟩ := exists_table_write h
  rw [htable]
  exact texts_of_fields hheader

/-- The rows of a file are read as texts, as long as the header. -/
theorem exists_rowTexts_write {β : Type} {names : List String} {items : List β}
    {fields : β → List String} (h : Writable (names :: items.map fields))
    (hlength : ∀ x ∈ items, (fields x).length = names.length) :
    ∃ table, Table.ofBytes (write (names :: items.map fields)) = table ∧
      table.header.texts = .ok names ∧
      List.Forall₂ (fun line x => x ∈ items ∧ table.rowTexts line = .ok (fields x)) table.rows
        items := by
  obtain ⟨header, lines, htable, hheader, hlines⟩ := exists_table_write h
  refine ⟨⟨header, lines⟩, htable, texts_of_fields hheader, ?_⟩
  -- every line is that of an item
  have hpairs : List.Forall₂ Eq (lines.map (·.fields))
      ((items.map fields).map (·.map Utf8.encode)) := by
    rw [List.forall₂_eq_eq_eq]
    exact hlines
  rw [List.forall₂_map_left_iff, List.forall₂_map_right_iff, List.forall₂_map_right_iff]
    at hpairs
  obtain ⟨hlen, hzip⟩ := List.forall₂_iff_zip.mp hpairs
  refine List.forall₂_iff_zip.mpr ⟨hlen, ?_⟩
  intro line x hmem
  have hx := (List.of_mem_zip hmem).2
  have hline : line.fields = (fields x).map Utf8.encode := hzip hmem
  refine ⟨hx, ?_⟩
  unfold Table.rowTexts
  rw [hline, hheader, List.length_map, List.length_map, if_pos (hlength x hx)]
  exact texts_of_fields hline

/-! ## §5 — rows and tables -/

namespace Schema

variable {schema : Schema}

/-- A cell that is read joins the cells before it. -/
theorem collect_cons {index : Nat} {found : Cells} {name field : String} {column : Column}
    {cell : Cell} (rest : List (String × String)) (hcolumn : schema.column? name = some column)
    (hnew : found.lookup name = none) (hread : column.type.read field = .ok cell) :
    schema.collect index found ((name, field) :: rest) =
      schema.collect (index + 1) ((name, cell) :: found) rest := by
  rw [collect, hcolumn]
  dsimp only
  rw [hnew, hread]
  rfl

/-- Fields that are read as the cells of their columns. -/
inductive Reads : List Column → List String → List Cell → Prop where
  | nil : Reads [] [] []
  | cons {column : Column} {columns : List Column} {field : String} {fields : List String}
      {cell : Cell} {cells : List Cell} (h : column.type.read field = .ok cell)
      (hrest : Reads columns fields cells) :
      Reads (column :: columns) (field :: fields) (cell :: cells)

theorem Reads.length_cells {columns : List Column} {fields : List String} {cells : List Cell}
    (h : Reads columns fields cells) : cells.length = columns.length := by
  induction h with
  | nil => rfl
  | cons _ _ ih => rw [List.length_cons, List.length_cons, ih]

theorem column?_of_mem (hnames : (schema.columns.map (·.name)).Nodup) {column : Column}
    (h : column ∈ schema.columns) : schema.column? column.name = some column := by
  unfold column?
  cases hfind : schema.columns.find? (·.name = column.name) with
  | none =>
    have hnone := List.find?_eq_none.mp hfind column h
    simp at hnone
  | some other =>
    have hname : other.name = column.name := by simpa using List.find?_some hfind
    rw [List.inj_on_of_nodup_map hnames (List.mem_of_find?_eq_some hfind) h hname]

/-- Columns that were not found yet are found in order. -/
theorem collect_of_reads {columns : List Column} {fields : List String} {cells : List Cell}
    (h : Reads columns fields cells) (hcolumns : ∀ c ∈ columns, schema.column? c.name = some c)
    (hnames : (columns.map (·.name)).Nodup) {found : Cells}
    (hnew : ∀ c ∈ columns, found.lookup c.name = none) (index : Nat) :
    schema.collect index found ((columns.map (·.name)).zip fields) =
      .ok (((columns.map (·.name)).zip cells).reverse ++ found) := by
  induction h generalizing found index with
  | nil => rfl
  | @cons column columns field fields cell cells hread _ ih =>
    obtain ⟨hcolumn, hcolumns⟩ := List.forall_mem_cons.mp hcolumns
    obtain ⟨hfirst, hrest⟩ := List.forall_mem_cons.mp hnew
    rw [List.map_cons, List.nodup_cons] at hnames
    -- the name of the first column is not that of a later one
    have hnew' : ∀ c ∈ columns, List.lookup c.name ((column.name, cell) :: found) = none := by
      intro c hc
      have hne : c.name ≠ column.name := fun heq =>
        hnames.1 (heq ▸ List.mem_map_of_mem hc)
      rw [List.lookup_cons, beq_eq_false_iff_ne.mpr hne]
      exact hrest c hc
    rw [List.map_cons, List.zip_cons_cons, List.zip_cons_cons,
      collect_cons _ hcolumn hfirst hread, ih hcolumns hnames.2 hnew', List.reverse_cons,
      List.append_assoc]
    rfl

/-- **A row is read column by column**, if it has a field for every column. -/
theorem readNamed_of_reads (hnames : (schema.columns.map (·.name)).Nodup) {fields : List String}
    {cells : List Cell} (h : Reads schema.columns fields cells) :
    schema.readNamed (schema.columns.map (·.name)) fields =
      .ok ((schema.columns.map (·.name)).zip cells).reverse := by
  have hcollect : schema.collect 0 [] ((schema.columns.map (·.name)).zip fields) =
      .ok ((schema.columns.map (·.name)).zip cells).reverse := by
    rw [collect_of_reads h (fun c hc => column?_of_mem hnames hc) hnames (fun _ _ => rfl),
      List.append_nil]
  -- so no column is missing
  have hfound : schema.columns.find? (fun c => c.required &&
      (((schema.columns.map (·.name)).zip cells).reverse.lookup c.name).isNone) = none := by
    rw [List.find?_eq_none]
    intro c hc hmissing
    have hkeys : ((schema.columns.map (·.name)).zip cells).map Prod.fst =
        schema.columns.map (·.name) :=
      List.map_fst_zip (by rw [List.length_map, h.length_cells])
    have hkey : c.name ∈ ((schema.columns.map (·.name)).zip cells).map Prod.fst :=
      hkeys.symm ▸ List.mem_map_of_mem hc
    obtain ⟨cell, hcell, hname⟩ := List.mem_map.mp hkey
    rw [Bool.and_eq_true, Option.isNone_iff_eq_none, List.lookup_eq_none_iff] at hmissing
    have hne := hmissing.2 cell (List.mem_reverse.mpr hcell)
    rw [hname] at hne
    simp at hne
  unfold readNamed
  rw [hcollect]
  show schema.requireColumns _ = _
  rw [requireColumns, hfound]

/-- **A table is read row by row**, each item as the cells of its fields say. -/
theorem readTable_write {α β : Type} {ofCells : Cells → α} {names : List String} {items : List β}
    {fields : β → List String} {value : β → α} (h : Writable (names :: items.map fields))
    (hlength : ∀ x ∈ items, (fields x).length = names.length)
    (hcells : ∀ x ∈ items, ∃ cells, schema.readNamed names (fields x) = .ok cells ∧
      ofCells cells = value x) :
    schema.readTable ofCells (write (names :: items.map fields)) = .ok (items.map value) := by
  obtain ⟨table, htable, hheader, hlines⟩ := exists_rowTexts_write h hlength
  unfold readTable
  rw [htable]
  dsimp only
  rw [hheader]
  apply mapM_eq_ok
  rw [List.forall₂_map_right_iff]
  refine hlines.imp ?_
  rintro line x ⟨hx, htexts⟩
  obtain ⟨cells, hcells, hvalue⟩ := hcells x hx
  have hrow : schema.readRow (.ok names) (fields x) = .ok cells := hcells
  rw [htexts, ← hvalue]
  simp only [bind, Except.bind, hrow]

end Schema

end Csv

end WorkloadSynth
