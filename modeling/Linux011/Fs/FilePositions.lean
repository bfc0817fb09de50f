import Linux011.Fs.CacheReferences
import Linux011.Fs.FileDev

/-!
# The blocks that file calls ask the block map for

A position that is not negative and an `i_size` that the block map covers
stay so through all calls of a process, as long as no write goes past the
last block that can be mapped.  `sys_lseek` lets a position go further, and
the next write panics.
-/

namespace Linux011.Fs

open Coop Prog Sched

/-- The bytes of the largest file that `_bmap` can map. -/
def mappedBytes : Nat := mappedBlocks * 1024

/-- A position of a 32-bit file, and a size that can be mapped. -/
structure PositionFits (file : OpenFile) (inode : Inode) : Prop where
  lower : 0 ≤ file.fPos
  upper : file.fPos < 2147483648
  size : inode.size ≤ mappedBytes

/-- Whether reads and writes of the inode go through the block map. -/
def Inode.isMapped (inode : Inode) : Bool :=
  inode.isDirectory || inode.isRegular

/-- The open files and directories have such positions and sizes. -/
def PositionsFit (files : FileTable) (kernel : Kernel) : Prop :=
  ∀ fd slot, files.filp fd = some slot →
    (kernel.inodes (files.file slot).fInode).isMapped = true →
      PositionFits (files.file slot) (kernel.inodes (files.file slot).fInode)

/-- A call of the process on its files. -/
inductive FileCall where
  | open (flag : BitVec 32) (found : Except Int Nat) (after : Kernel)
  | lseek (fd : Nat) (offset : BitVec 32) (origin : Nat)
  | read (fd : Nat) (count : BitVec 32) (device : DeviceCall)
  | write (fd : Nat) (buf : Nat → UInt8) (count : BitVec 32)
      (device : DeviceCall)

namespace FileCall

/-- The call, and the files after it. -/
def program (fuel : Nat) (files : FileTable) : FileCall → Sys FileTable
  | .open flag found after => do
      let (_, files) ← sysOpen files flag found after
      return files
  | .lseek fd offset origin => do
      let (_, files) ← sysLseek files fd offset origin
      return files
  | .read fd count device => do
      let (_, _, files) ← sysRead fuel files fd count device
      return files
  | .write fd buf count device => do
      let (_, files) ← sysWrite fuel files fd buf count device
      return files

/-- `open_namei` leaves the open files what they are, and at most truncates
them. -/
def Possible (files : FileTable) (kernel : Kernel) : FileCall → Prop
  | .open _ _ after => ∀ fd slot, files.filp fd = some slot →
      let nr := (files.file slot).fInode
      (after.inodes nr).mode = (kernel.inodes nr).mode ∧
        (after.inodes nr).size ≤ (kernel.inodes nr).size
  | _ => True

/-- A file that is opened is not larger than what can be mapped, and no write
to a regular file goes past that. -/
def InRange (files : FileTable) (kernel : Kernel) : FileCall → Prop
  | .open _ found after =>
      ∀ nr, found = .ok nr → (after.inodes nr).size ≤ mappedBytes
  | .write fd _ count _ => ∀ slot, files.slotAt fd = some slot →
      let file := files.file slot
      let inode := kernel.inodes file.fInode
      inode.pipe = false → inode.isRegular = true → 0 < count.toInt →
        file.start inode + count.toInt ≤ mappedBytes
  | _ => True

end FileCall

/-- `_bmap` does not panic. -/
def mapperFate : Fate where
  panic := NotOfMapper
  spent := True
  crossed := True

/-- What calls of one process, each of which meets `guard`, come to; the
devices work while it sleeps. -/
inductive FileRun (guard : FileTable → Kernel → FileCall → Prop) (fuel : Nat)
    (files : FileTable) (kernel : Kernel) : FileTable → Kernel → Prop where
  | start : FileRun guard fuel files kernel files kernel
  | call {before after : FileTable} {state next : Kernel} (call : FileCall)
      (run : FileRun guard fuel files kernel before state)
      (possible : call.Possible before state)
      (allowed : guard before state call)
      (returns : (call.program fuel before state).MayReturn True Interrupts
        after next) :
      FileRun guard fuel files kernel after next

/-- In all runs of calls that meet `guard`, `_bmap` is only called for blocks
it can map: it never panics. -/
def MapperSafe (guard : FileTable → Kernel → FileCall → Prop) : Prop :=
  ∀ fuel files kernel before state (call : FileCall),
    PositionsFit files kernel →
      FileRun guard fuel files kernel before state →
        call.Possible before state → guard before state call →
          (call.program fuel before).unmarked.wp mapperFate Interrupts
            (fun _ _ => True) state

/-! ## What the block map leaves of them -/

section Fits

variable {files : FileTable} {kernel next : Kernel}

theorem isMapped_congr {inode other : Inode} (mode : other.mode = inode.mode) :
    other.isMapped = inode.isMapped := by
  unfold Inode.isMapped Inode.isDirectory Inode.isRegular Inode.fileType
  rw [mode]

theorem PositionsFit.change (fits : PositionsFit files kernel)
    (mode : ∀ nr, (next.inodes nr).mode = (kernel.inodes nr).mode)
    (size : ∀ nr, (kernel.inodes nr).size ≤ mappedBytes →
      (next.inodes nr).size ≤ mappedBytes) : PositionsFit files next := by
  intro fd slot isOpen isMapped
  rw [isMapped_congr (mode _)] at isMapped
  have fit := fits fd slot isOpen isMapped
  exact ⟨fit.lower, fit.upper, size _ fit.size⟩

theorem PositionsFit.remapped (fits : PositionsFit files kernel)
    (remapped : Remapped kernel next) : PositionsFit files next := by
  apply fits.change
  · intro nr
    obtain ⟨_, _, _, _, same⟩ := remapped.inodes nr
    rw [same]
  · intro nr small
    obtain ⟨_, _, _, _, same⟩ := remapped.inodes nr
    rw [same]
    exact small

theorem PositionsFit.interrupts (fits : PositionsFit files kernel)
    (moved : Interrupts kernel next) : PositionsFit files next := by
  unfold PositionsFit
  rw [moved.inodes]
  exact fits

/-- A change of one inode that keeps its type and a size that can be
mapped. -/
theorem PositionsFit.setInode (fits : PositionsFit files kernel) {index : Nat}
    {inode : Inode} (mode : inode.mode = (kernel.inodes index).mode)
    (size : (kernel.inodes index).size ≤ mappedBytes →
      inode.size ≤ mappedBytes) :
    PositionsFit files (kernel.setInode index inode) := by
  apply fits.change
  · intro nr
    show (if nr = index then inode else kernel.inodes nr).mode = _
    split <;> rename_i here
    · rw [here]
      exact mode
    · rfl
  · intro nr small
    show (if nr = index then inode else kernel.inodes nr).size ≤ _
    split <;> rename_i here
    · rw [here] at small
      exact size small
    · exact small

end Fits

section Loops

variable {files : FileTable}

/-- What the block map does on its way leaves all positions and sizes. -/
theorem mapperKind_fits : MapperKind fun _ program =>
    Stays mapperFate Interrupts (PositionsFit files) program := by
  have keeps : Prog.Kind
      (fun kernel next => PositionsFit files kernel → PositionsFit files next)
      NotOfMapper fun _ program =>
        Stays mapperFate Interrupts (PositionsFit files) program :=
    @kind_stays _ mapperFate Interrupts (PositionsFit files) trivial
      fun _ _ fits moved => fits.interrupts moved
  exact keeps.narrow fun _ _ remapped fits => fits.remapped remapped

/-- A place before the end of what can be mapped is in a block that can be. -/
theorem mapBlock_fits {pos : Int} (lower : 0 ≤ pos) (upper : pos < mappedBytes)
    (create : Bool) (fuel index : Nat) :
    Stays mapperFate Interrupts (PositionsFit files)
      (mapBlock create fuel index (pos.tdiv 1024)) := by
  have block : pos.tdiv 1024 = pos / 1024 := Int.tdiv_eq_ediv_of_nonneg lower
  unfold mappedBytes at upper
  unfold mapBlock
  rw [block, if_neg (by omega)]
  apply mapperKind_fits.bmapWith
  intro tooBig
  omega

/-- The position after a piece of a block, and the rest. -/
theorem long_add {pos : Int} {chars left : Nat} (lower : 0 ≤ pos)
    (upper : pos + left ≤ mappedBytes) (within : chars ≤ left) :
    long (pos + chars) = pos + chars := by
  have limit : (mappedBytes : Int) = 268966912 := by decide
  apply long_of_fits <;> omega

theorem fileReadLoop_fits (fuel index rounds left : Nat) (pos : Int)
    (bytes : List UInt8) (lower : 0 ≤ pos) (upper : pos + left ≤ mappedBytes) :
    Hoare mapperFate Interrupts (PositionsFit files)
      (fileReadLoop fuel index rounds left pos bytes).unmarked
      fun result kernel => PositionsFit files kernel ∧
        pos ≤ result.2.1 ∧ result.2.1 ≤ pos + left := by
  induction rounds generalizing left pos bytes with
  | zero =>
      exact hoare_pure fun _ fits => ⟨fits, Int.le_refl pos,
        Int.le_add_of_nonneg_right (Int.natCast_nonneg left)⟩
  | succ rounds induction =>
      have stop : Hoare mapperFate Interrupts (PositionsFit files)
          (pure (left, pos, bytes) : Sys (Nat × Int × List UInt8)).unmarked
          fun result kernel => PositionsFit files kernel ∧
            pos ≤ result.2.1 ∧ result.2.1 ≤ pos + left :=
        hoare_pure fun _ fits => ⟨fits, Int.le_refl pos,
          Int.le_add_of_nonneg_right (Int.natCast_nonneg left)⟩
      have goesOn (copied : List UInt8) :
          Hoare mapperFate Interrupts (PositionsFit files)
            (fileReadLoop fuel index rounds
              (left - min (1024 - (pos.tmod 1024).toNat) left)
              (long (pos + (min (1024 - (pos.tmod 1024).toNat) left : Nat)))
              (bytes ++ copied)).unmarked
            fun result kernel => PositionsFit files kernel ∧
              pos ≤ result.2.1 ∧ result.2.1 ≤ pos + left := by
        have within : min (1024 - (pos.tmod 1024).toNat) left ≤ left :=
          Nat.min_le_right _ _
        rw [long_add lower upper within]
        refine hoare_post (induction _ _ _ (by omega) (by omega)) ?_
        rintro result kernel ⟨fits, atLeast, atMost⟩
        exact ⟨fits, by omega, by omega⟩
      unfold fileReadLoop
      split
      · exact stop
      · refine hoare_unmarked_bind
          (mapBlock_fits lower (by omega) false fuel index) fun nr => ?_
        dsimp only
        split
        · exact goesOn _
        · apply hoare_unmarked_read
          intro kernel
          refine hoare_unmarked_bind (mapperKind_fits.unmarked
            (mapperKind_fits.cache.bread _ _ _)) fun found => ?_
          cases found with
          | none => exact stop
          | some bh =>
              apply hoare_unmarked_read
              intro kernel
              exact hoare_unmarked_bind (mapperKind_fits.cache.brelse _)
                fun _ => goesOn _

theorem fileWriteLoop_fits (fuel index : Nat) (buf : Nat → UInt8)
    (count rounds i : Nat) (pos : Int) (lower : 0 ≤ pos)
    (upper : pos + (count - i : Nat) ≤ mappedBytes) :
    Hoare mapperFate Interrupts (PositionsFit files)
      (fileWriteLoop fuel index buf count rounds i pos).unmarked
      fun result kernel => PositionsFit files kernel ∧
        0 ≤ result.2 ∧ result.2 ≤ mappedBytes := by
  induction rounds generalizing i pos with
  | zero => exact hoare_pure fun _ fits => ⟨fits, by omega, by omega⟩
  | succ rounds induction =>
      have stop : Hoare mapperFate Interrupts (PositionsFit files)
          (pure (i, pos) : Sys (Nat × Int)).unmarked
          fun result kernel => PositionsFit files kernel ∧
            0 ≤ result.2 ∧ result.2 ≤ mappedBytes :=
        hoare_pure fun _ fits => ⟨fits, by omega, by omega⟩
      unfold fileWriteLoop
      split
      · exact stop
      · refine hoare_unmarked_bind
          (mapBlock_fits lower (by omega) true fuel index) fun block => ?_
        split
        · exact stop
        · apply hoare_unmarked_read
          intro kernel
          refine hoare_unmarked_bind (mapperKind_fits.unmarked
            (mapperKind_fits.cache.bread _ _ _)) fun found => ?_
          cases found with
          | none => exact stop
          | some bh =>
              have within : min (1024 - (pos.tmod 1024).toNat) (count - i) ≤
                count - i := Nat.min_le_right _ _
              dsimp only
              rw [long_add lower upper within]
              refine hoare_unmarked_bind (stays_modify fun kernel fits => ?_)
                fun _ => ?_
              · apply fits.setInode
                · dsimp only
                  split <;> rfl
                · intro small
                  dsimp only
                  split
                  · have limit : (mappedBytes : Int) = 268966912 := by decide
                    show unsignedLong _ ≤ _
                    unfold unsignedLong
                    omega
                  · exact small
              · apply hoare_unmarked_bind (mapperKind_fits.cache.onBuffer _ _)
                intro _
                apply hoare_unmarked_bind (mapperKind_fits.cache.brelse _)
                intro _
                exact induction _ _ (by omega) (by omega)

end Loops

/-! ## The calls -/

section Calls

variable {files : FileTable} {kernel : Kernel} {slot : Fin 64}

theorem PositionsFit.at_ (fits : PositionsFit files kernel) {fd : Nat}
    (isOpen : files.slotAt fd = some slot)
    (isMapped : (kernel.inodes (files.file slot).fInode).isMapped = true) :
    PositionFits (files.file slot) (kernel.inodes (files.file slot).fInode) := by
  obtain ⟨found, _, isFilp⟩ := Option.bind_eq_some_iff.mp isOpen
  exact fits found slot isFilp isMapped

/-- A new position of a file.  What a device makes of its position does not
matter. -/
theorem PositionsFit.setPos (fits : PositionsFit files kernel) {pos : Int}
    (inFile : (kernel.inodes (files.file slot).fInode).isMapped = true →
      0 ≤ pos ∧ pos < 2147483648) :
    PositionsFit (files.setPos slot pos) kernel := by
  intro fd other isOpen isMapped
  have inode : ((files.setPos slot pos).file other).fInode =
      (files.file other).fInode := by
    show (if other = slot then _ else files.file other).fInode = _
    split <;> rename_i here
    · rw [here]
    · rfl
  rw [inode] at isMapped ⊢
  have fit := fits fd other isOpen isMapped
  by_cases here : other = slot
  · subst here
    obtain ⟨lower, upper⟩ := inFile isMapped
    have moved : ((files.setPos other pos).file other).fPos = pos := by
      show (if other = other then _ else files.file other).fPos = _
      rw [if_pos rfl]
    exact ⟨by rw [moved]; exact lower, by rw [moved]; exact upper, fit.size⟩
  · have same : (files.setPos slot pos).file other = files.file other :=
      if_neg here
    rw [same]
    exact fit

theorem fileRead_fits (fuel index : Nat) {pos count : Int} (lower : 0 ≤ pos)
    (upper : pos < 2147483648) (inRange : 0 < count → pos + count ≤ mappedBytes) :
    Hoare mapperFate Interrupts (PositionsFit files)
      (fileRead fuel index pos count).unmarked
      fun result kernel => PositionsFit files kernel ∧
        0 ≤ result.2.1 ∧ result.2.1 < 2147483648 := by
  have limit : (mappedBytes : Int) = 268966912 := by decide
  unfold fileRead
  split <;> rename_i sign
  · exact hoare_pure fun _ fits => ⟨fits, lower, upper⟩
  · have end_ := inRange (by omega)
    refine hoare_unmarked_bind
      (fileReadLoop_fits fuel index count.toNat count.toNat pos [] lower
        (by omega)) fun result => ?_
    obtain ⟨left, reached, bytes⟩ := result
    apply hoare_unmarked_get
    rintro kernel ⟨fits, atLeast, atMost⟩
    dsimp only at atLeast atMost ⊢
    have stamped (now : Nat) : PositionsFit files (kernel.setInode index
        { kernel.inodes index with atime := now }) :=
      fits.setInode rfl fun small => small
    refine hoare_unmarked_bind (hoare_modify ?_) fun _ =>
      hoare_pure fun next (isNext : PositionsFit files next) =>
        ⟨isNext, ?_, ?_⟩
    · rintro _ rfl
      exact stamped _
    · show 0 ≤ reached
      omega
    · show reached < 2147483648
      omega

theorem fileWrite_fits (fuel : Nat) (file : OpenFile) (buf : Nat → UInt8)
    {count : Int} (counts : 0 < count) (isKernel : PositionsFit files kernel)
    (lower : 0 ≤ file.start (kernel.inodes file.fInode))
    (inRange : file.start (kernel.inodes file.fInode) + count ≤ mappedBytes)
    (place : 0 ≤ file.fPos ∧ file.fPos < 2147483648) :
    Hoare mapperFate Interrupts (fun current => current = kernel)
      (fileWrite fuel file buf count).unmarked
      fun result kernel => PositionsFit files kernel ∧
        0 ≤ result.2 ∧ result.2 < 2147483648 := by
  have limit : (mappedBytes : Int) = 268966912 := by decide
  apply hoare_unmarked_get
  rintro _ rfl
  refine hoare_unmarked_bind (hoare_at isKernel
    (fileWriteLoop_fits fuel file.fInode buf count.toNat count.toNat 0 _ lower
      (by omega))) fun result => ?_
  obtain ⟨stored, reached⟩ := result
  apply hoare_unmarked_get
  rintro kernel ⟨fits, atLeast, atMost⟩
  dsimp only at atLeast atMost ⊢
  refine hoare_unmarked_bind (hoare_modify ?_) fun _ =>
    hoare_pure fun next (isNext : PositionsFit files next) => ⟨isNext, ?_⟩
  · rintro _ rfl
    apply fits.setInode
    · dsimp only
      split <;> rfl
    · intro small
      dsimp only
      split <;> exact small
  · show 0 ≤ (if _ then file.fPos else reached) ∧
      (if _ then file.fPos else reached) < 2147483648
    split
    · exact place
    · omega

theorem isMapped_of_device {inode : Inode}
    (isDevice : (inode.isChrDevice || inode.isBlockDevice) = true) :
    inode.isMapped = false := by
  unfold Inode.isChrDevice Inode.isBlockDevice at isDevice
  unfold Inode.isMapped Inode.isDirectory Inode.isRegular
  rcases (Bool.or_eq_true _ _).mp isDevice with type | type <;>
    rw [eq_of_beq type] <;> rfl

theorem long_upper (value : Int) : long value < 2147483648 :=
  Int.bmod_lt (by decide)

theorem sysLseek_fits (fd : Nat) (offset : BitVec 32) (origin : Nat) :
    Hoare mapperFate Interrupts (PositionsFit files)
      (sysLseek files fd offset origin).unmarked
      fun result kernel => PositionsFit result.2 kernel := by
  apply hoare_unmarked_read
  intro kernel
  have stop (errno : Int) : Hoare mapperFate Interrupts (PositionsFit files)
      (pure (errno, files) : Sys (Int × FileTable)).unmarked
      fun result kernel => PositionsFit result.2 kernel :=
    hoare_pure fun _ fits => fits
  split
  · exact stop _
  · rename_i slot isOpen
    have seek {pos : Int} (upper : pos < 2147483648) :
        Hoare mapperFate Interrupts (PositionsFit files)
          (if pos < 0 then pure (-22, files)
            else pure (pos, files.setPos slot pos)
            : Sys (Int × FileTable)).unmarked
          fun result kernel => PositionsFit result.2 kernel := by
      split <;> rename_i sign
      · exact stop _
      · exact hoare_pure fun _ fits =>
          fits.setPos fun _ => ⟨Int.not_lt.mp sign, upper⟩
    dsimp only
    split
    · exact stop _
    split
    · exact stop _
    split
    · exact seek (by have := offset.toInt_lt; omega)
    · exact seek (long_upper _)
    · exact seek (long_upper _)
    · exact stop _

theorem sysRead_fits (fuel fd : Nat) (count : BitVec 32) (device : DeviceCall) :
    Hoare mapperFate Interrupts (PositionsFit files)
      (sysRead fuel files fd count device).unmarked
      fun result kernel => PositionsFit result.2.2 kernel := by
  apply hoare_unmarked_get
  intro kernel fits
  have stop (result : Int) (bytes : List UInt8) :
      Hoare mapperFate Interrupts (fun current => current = kernel)
        (pure (result, bytes, files) : Sys (Int × List UInt8 × FileTable)).unmarked
        fun result kernel => PositionsFit result.2.2 kernel := by
    apply hoare_pure
    rintro _ rfl
    exact fits
  dsimp only
  split
  · exact stop _ _
  · rename_i slot isOpen
    split
    · exact stop _ _
    split
    · exact stop _ _
    split
    · split
      · exact stop _ _
      · exact stop _ _
    split <;> rename_i isDevice
    · apply hoare_pure
      rintro _ rfl
      apply fits.setPos
      intro isMapped
      rw [isMapped_of_device isDevice] at isMapped
      cases isMapped
    split <;> rename_i isMapped
    · have fit := fits.at_ isOpen isMapped
      split <;> rename_i atEnd
      · exact stop _ _
      · refine hoare_unmarked_bind (hoare_at fits (fileRead_fits fuel _ fit.lower
          fit.upper fun _ => ?_)) fun result => ?_
        · have sizes := fit.size
          have lower := fit.lower
          have upper := fit.upper
          have small := count.toInt_lt
          unfold mappedBytes mappedBlocks at sizes ⊢
          unfold OpenFile.readCount
          split <;> rename_i past
          · rw [long_of_fits (by omega) (by omega)]
            omega
          · unfold unsignedLong at past
            omega
        · exact hoare_pure fun next (holds : PositionsFit files next ∧ _) =>
            holds.1.setPos fun _ => holds.2
    · exact stop _ _

theorem sysWrite_fits (fuel fd : Nat) (buf : Nat → UInt8) (count : BitVec 32)
    (device : DeviceCall) (fits : PositionsFit files kernel)
    (inRange : FileCall.InRange files kernel (.write fd buf count device)) :
    Hoare mapperFate Interrupts (fun current => current = kernel)
      (sysWrite fuel files fd buf count device).unmarked
      fun result kernel => PositionsFit result.2 kernel := by
  have stop (result : Int) :
      Hoare mapperFate Interrupts (fun current => current = kernel)
        (pure (result, files) : Sys (Int × FileTable)).unmarked
        fun result kernel => PositionsFit result.2 kernel := by
    apply hoare_pure
    rintro _ rfl
    exact fits
  apply hoare_unmarked_get
  intro current isCurrent
  subst isCurrent
  dsimp only
  split
  · exact stop _
  · rename_i slot isOpen
    split
    · exact stop _
    split
    · exact stop _
    split
    · split
      · exact stop _
      · exact stop _
    split <;> rename_i notPipe isDevice
    · apply hoare_pure
      rintro _ rfl
      apply fits.setPos
      intro isMapped
      rw [isMapped_of_device isDevice] at isMapped
      cases isMapped
    split <;> rename_i isRegular
    · have isMapped : (current.inodes (files.file slot).fInode).isMapped =
          true := (Bool.or_eq_true _ _).mpr (.inr isRegular)
      have fit := fits.at_ isOpen isMapped
      have end_ := inRange slot isOpen (Bool.eq_false_of_not_eq_true notPipe)
        isRegular (by omega)
      have sizes := fit.size
      have lower : 0 ≤ (files.file slot).start
          (current.inodes (files.file slot).fInode) := by
        unfold OpenFile.start
        unfold mappedBytes mappedBlocks at sizes
        split
        · rw [long_of_fits (by omega) (by omega)]
          omega
        · exact fit.lower
      refine hoare_unmarked_bind (fileWrite_fits fuel (files.file slot) buf
        (by omega) fits lower end_ ⟨fit.lower, fit.upper⟩) fun result => ?_
      exact hoare_pure fun next (holds : PositionsFit files next ∧ _) =>
        holds.1.setPos fun _ => holds.2
    · exact stop _

/-- The open files after a lookup. -/
theorem PositionsFit.lookup (fits : PositionsFit files kernel)
    {flag : BitVec 32} {found : Except Int Nat} {after : Kernel}
    (possible : FileCall.Possible files kernel (.open flag found after)) :
    PositionsFit files after := by
  intro fd slot isOpen isMapped
  obtain ⟨mode, size⟩ := possible fd slot isOpen
  rw [isMapped_congr mode] at isMapped
  have fit := fits fd slot isOpen isMapped
  exact ⟨fit.lower, fit.upper, Nat.le_trans size fit.size⟩

/-- A file that is opened. -/
theorem PositionsFit.install (fits : PositionsFit files kernel) (fd : Fin 20)
    {file : OpenFile} (fit : PositionFits file (kernel.inodes file.fInode)) :
    PositionsFit ({ files with
      filp := fun other =>
        if other = fd then some slot else files.filp other }.setFile slot file)
      kernel := by
  intro other place isOpen isMapped
  by_cases here : place = slot
  · subst here
    have same : (FileTable.setFile { files with
        filp := fun other => if other = fd then some place
          else files.filp other } place file).file place = file := if_pos rfl
    rw [same]
    exact fit
  · have same : (FileTable.setFile { files with
        filp := fun other => if other = fd then some slot
          else files.filp other } slot file).file place = files.file place :=
      if_neg here
    rw [same] at isMapped ⊢
    refine fits other place ?_ isMapped
    have isFilp : (if other = fd then some slot else files.filp other) =
        some place := isOpen
    split at isFilp
    · exact absurd (Option.some.inj isFilp).symm here
    · exact isFilp

theorem sysOpen_fits {flag : BitVec 32} {found : Except Int Nat}
    {after : Kernel} (fits : PositionsFit files kernel)
    (possible : FileCall.Possible files kernel (.open flag found after))
    (inRange : FileCall.InRange files kernel (.open flag found after)) :
    Hoare mapperFate Interrupts (fun current => current = kernel)
      (sysOpen files flag found after).unmarked
      fun result kernel => PositionsFit result.2 kernel := by
  have stays (result : Int) :
      Hoare mapperFate Interrupts (fun current => current = kernel)
        (pure (result, files) : Sys (Int × FileTable)).unmarked
        fun result kernel => PositionsFit result.2 kernel := by
    apply hoare_pure
    rintro _ rfl
    exact fits
  have looked := fits.lookup possible
  unfold sysOpen
  split
  · exact stays _
  · dsimp only
    split
    · apply hoare_pure
      rintro _ rfl
      exact fits
    · refine @hoare_unmarked_bind _ _ _ mapperFate Interrupts _ _ _ _
        (fun _ current => current = after) (hoare_modify fun _ _ => rfl)
        fun _ => ?_
      split
      · apply hoare_pure
        rintro _ rfl
        exact looked
      · rename_i nr
        have fresh (mode flags : BitVec 16) :
            PositionFits ⟨mode, flags, 1, nr, 0⟩ (after.inodes nr) :=
          ⟨Int.le_refl 0, (by decide : (0 : Int) < 2147483648),
            inRange nr rfl⟩
        split
        · apply hoare_pure
          rintro _ rfl
          exact looked
        · apply hoare_pure
          rintro _ rfl
          split
          · exact PositionsFit.install (fun fd slot => looked fd slot) _
              (fresh _ _)
          · exact PositionsFit.install (fun fd slot => looked fd slot) _
              (fresh _ _)

end Calls

/-- A call in range keeps the positions and sizes, and `_bmap` does not
panic in it. -/
theorem FileCall.fits {files : FileTable} {kernel : Kernel} (call : FileCall)
    (fuel : Nat) (isKernel : PositionsFit files kernel)
    (possible : call.Possible files kernel)
    (inRange : call.InRange files kernel) :
    Hoare mapperFate Interrupts (fun current => current = kernel)
      (call.program fuel files).unmarked
      fun files kernel => PositionsFit files kernel := by
  cases call with
  | «open» flag found after =>
      exact hoare_unmarked_bind (sysOpen_fits isKernel possible inRange)
        fun _ => hoare_pure fun _ fits => fits
  | lseek fd offset origin =>
      exact hoare_unmarked_bind
        (hoare_at isKernel (sysLseek_fits fd offset origin))
        fun _ => hoare_pure fun _ fits => fits
  | read fd count device =>
      exact hoare_unmarked_bind
        (hoare_at isKernel (sysRead_fits fuel fd count device))
        fun _ => hoare_pure fun _ fits => fits
  | write fd buf count device =>
      exact hoare_unmarked_bind
        (sysWrite_fits fuel fd buf count device isKernel inRange)
        fun _ => hoare_pure fun _ fits => fits

theorem FileRun.fits {fuel : Nat} {files before : FileTable}
    {kernel state : Kernel}
    (run : FileRun (fun files kernel call => call.InRange files kernel) fuel files kernel before state)
    (initial : PositionsFit files kernel) : PositionsFit before state := by
  induction run with
  | start => exact initial
  | call call _ possible allowed returns induction =>
      exact returns.meets ((call.fits fuel induction possible allowed).run _ rfl)

/-- Where files that are opened are no larger than what can be mapped, and
writes do not go past that, reads and writes only ask for blocks that can
be. -/
theorem fileCalls_mapped {fuel : Nat} {files before : FileTable}
    {kernel state : Kernel} {call : FileCall}
    (initial : PositionsFit files kernel)
    (run : FileRun (fun files kernel call => call.InRange files kernel) fuel
      files kernel before state)
    (possible : call.Possible before state)
    (inRange : call.InRange before state) :
    (call.program fuel before).unmarked.wp mapperFate Interrupts
      (fun _ _ => True) state := by
  have fits := run.fits initial
  exact wp_mono ((call.fits fuel fits possible inRange).run state rfl)
    fun _ _ _ => trivial

/-- An empty file in the inode table. -/
def emptyFile : Kernel :=
  idleKernel.setInode 0
    { Inode.zero with
      mode := 0o100644
      nlinks := 1
      dev := 0x301
      num := 2
      count := 1 }

/-- The file is open for reading and writing. -/
def oneOpen : FileTable where
  filp := fun fd =>
    if fd.val = 0 then some ⟨0, Nat.zero_lt_succ 63⟩ else none
  file := fun _ => ⟨0o100644, 2, 1, 0, 0⟩
  closeOnExec := 0
  leader := false
  tty := -1

theorem oneOpen_fits : PositionsFit oneOpen emptyFile := by
  rintro fd slot - -
  exact ⟨Int.le_refl 0, (by decide : (0 : Int) < 2147483648), Nat.zero_le _⟩

/-- A write of the last byte that can be mapped. -/
theorem fileCalls_mapped_last :
    ((FileCall.write 0 (fun _ => 0) 1 ⟨0, 0, []⟩).program 1
      (oneOpen.setPos 0 268966911)).unmarked.wp mapperFate Interrupts
        (fun _ _ => True) emptyFile := by
  refine fileCalls_mapped oneOpen_fits
    (.call (.lseek 0 268966911 0) .start trivial trivial ⟨rfl, rfl⟩) trivial ?_
  intro slot isOpen
  obtain rfl : 0 = slot := Option.some.inj isOpen
  have limit : (268966911 : Int) + 1 ≤ 268966912 := by decide
  exact fun _ _ _ => limit

/-- A write of one byte after a seek behind the last block of the block
map. -/
theorem fileCalls_unmapped : ¬MapperSafe fun _ _ _ => True := by
  intro safe
  have sought : FileRun (fun _ _ _ => True) 1 oneOpen emptyFile
      (oneOpen.setPos 0 mappedBytes) emptyFile :=
    .call (.lseek 0 268966912 0) .start trivial trivial ⟨rfl, rfl⟩
  have never := safe 1 oneOpen emptyFile _ _
    (.write 0 (fun _ => 0) 1 ⟨0, 0, []⟩) oneOpen_fits sought trivial trivial
  have spared : NotOfMapper "_bmap: block>big" := never
  exact spared.2 rfl

end Linux011.Fs
