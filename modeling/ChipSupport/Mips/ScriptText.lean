/-!
# Fixed parts of the MIPS script

The sections of a linker script for a MIPS device, in the order in which they are written.  Some of
them name a region that depends on the device.
-/

namespace ChipSupport.MipsScript

/-- What stands before the memory regions: the minimal sizes of stack and heap, and the addresses of
the exception vectors from the exception base. -/
def preamble (stack heap base : String) : List String :=
  ["OUTPUT_FORMAT(\"elf32-tradlittlemips\")",
   "ENTRY(_reset)",
   "",
   "/* Provide for a minimum stack and heap size; these can be overridden using the " ++
       "linker's --defsym",
   " * option on the command line.",
   " */",
   "EXTERN (_min_stack_size _min_heap_size)",
   "PROVIDE(_min_stack_size = " ++ stack ++ ");",
   "PROVIDE(_min_heap_size = " ++ heap ++ ");",
   "",
   "/* Provide symbols for linker and startup code to set up the interrupt table; these can be",
   " * overridden using the linker's --defsym option on the command line.",
   " */",
   "PROVIDE(_vector_spacing = 0x0001);",
   "PROVIDE(_ebase_address = " ++ base ++ ");",
   "",
   "/* These memory address symbols are used below for locating their appropriate " ++
       "sections.  The TLB",
   " * Refill and Cache Error address apply only to devices with an L1 cache.",
   " */",
   "_RESET_ADDR                    = 0xBFC00000;",
   "_BEV_EXCPT_ADDR                = 0xBFC00380;",
   "_DBG_EXCPT_ADDR                = 0xBFC00480;",
   "_SIMPLE_TLB_REFILL_EXCPT_ADDR  = _ebase_address + 0;",
   "_CACHE_ERR_EXCPT_ADDR          = _ebase_address + 0x100;",
   "_GEN_EXCPT_ADDR                = _ebase_address + 0x180;",
   ""]

/-- The sections in boot memory. -/
def bootSections : List String :=
  ["  /* MIPS CPU starts executing here. */",
   "  .reset _RESET_ADDR :",
   "  \x7b",
   "    KEEP(*(.reset))",
   "    KEEP(*(.reset.startup))",
   "  \x7d > kseg1_boot_mem",
   "",
   "  /* Boot exception vector; location fixed by hardware. */",
   "  .bev_excpt _BEV_EXCPT_ADDR :",
   "  \x7b",
   "    KEEP(*(.bev_handler))",
   "  \x7d > kseg1_boot_mem",
   "",
   "  /* Debugger exception vector; location fixed by hardware. */",
   "  .dbg_excpt _DBG_EXCPT_ADDR (NOLOAD) :",
   "  \x7b",
   "    . += (DEFINED (_DEBUGGER) ? 0x16 : 0x0);",
   "  \x7d > kseg1_boot_mem"]

/-- The sections of devices with a cache. -/
def cacheSections (region : String) : List String :=
  ["  .cache_init :",
   "  \x7b",
   "    *(.cache_init)",
   "    *(.cache_init.*)",
   "  \x7d > kseg1_boot_mem_4B0",
   "",
   "  /* TLB refill vector; location based on EBase address. */",
   "  .simple_tlb_refill_excpt _SIMPLE_TLB_REFILL_EXCPT_ADDR :",
   "  \x7b",
   "    KEEP(*(.simple_tlb_refill_vector))",
   "  \x7d > " ++ region,
   "",
   "  /* Cache error vector; location based on EBase address. */",
   "  .cache_err_excpt _CACHE_ERR_EXCPT_ADDR :",
   "  \x7b",
   "    KEEP(*(.cache_err_vector))",
   "  \x7d > " ++ region]

/-- The section of the general exception handler. -/
def exceptionSection (region : String) : List String :=
  ["  /* General exception vector; location based on EBase address. */",
   "  .app_excpt _GEN_EXCPT_ADDR :",
   "  \x7b",
   "    KEEP(*(.gen_handler))",
   "  \x7d > " ++ region]

/-- The sections of programs and constants. -/
def codeSections : List String :=
  ["  .text :",
   "  \x7b",
   "    *(.text)",
   "    *(.text.*)",
   "    *(.stub .gnu.linkonce.t.*)",
   "    KEEP (*(.text.*personality*))",
   "    *(.mips16.fn.*)",
   "    *(.mips16.call.*)",
   "    *(.gnu.warning)",
   "    . = ALIGN(4) ;",
   "  \x7d >kseg0_program_mem",
   "",
   "  /* Global-namespace object initialization */",
   "  .init   :",
   "  \x7b",
   "    KEEP (*crti.o(.init))",
   "    KEEP (*crtbegin.o(.init))",
   "    KEEP (*(EXCLUDE_FILE (*crtend.o *crtend?.o *crtn.o ).init))",
   "    KEEP (*crtend.o(.init))",
   "    KEEP (*crtn.o(.init))",
   "    . = ALIGN(4) ;",
   "  \x7d >kseg0_program_mem",
   "",
   "  .fini   :",
   "  \x7b",
   "    KEEP (*(.fini))",
   "    . = ALIGN(4) ;",
   "  \x7d >kseg0_program_mem",
   "",
   "  .preinit_array   :",
   "  \x7b",
   "    PROVIDE_HIDDEN (__preinit_array_start = .);",
   "    KEEP (*(.preinit_array))",
   "    PROVIDE_HIDDEN (__preinit_array_end = .);",
   "    . = ALIGN(4) ;",
   "  \x7d >kseg0_program_mem",
   "",
   "  .init_array   :",
   "  \x7b",
   "    PROVIDE_HIDDEN (__init_array_start = .);",
   "    KEEP (*(SORT(.init_array.*)))",
   "    KEEP (*(.init_array))",
   "    PROVIDE_HIDDEN (__init_array_end = .);",
   "    . = ALIGN(4) ;",
   "  \x7d >kseg0_program_mem",
   "",
   "  .fini_array   :",
   "  \x7b",
   "    PROVIDE_HIDDEN (__fini_array_start = .);",
   "    KEEP (*(SORT(.fini_array.*)))",
   "    KEEP (*(.fini_array))",
   "    PROVIDE_HIDDEN (__fini_array_end = .);",
   "    . = ALIGN(4) ;",
   "  \x7d >kseg0_program_mem",
   "",
   "  .ctors   :",
   "  \x7b",
   "    /* GCC uses crtbegin.o to find the start of",
   "       the constructors, so we make sure it is",
   "       first.  Because this is a wildcard, it",
   "       doesn't matter if the user does not",
   "       actually link against crtbegin.o; the",
   "       linker won't look for a file to match a",
   "       wildcard.  The wildcard also means that it",
   "       doesn't matter which directory crtbegin.o",
   "       is in.  */",
   "    KEEP (*crtbegin.o(.ctors))",
   "    KEEP (*crtbegin?.o(.ctors))",
   "    /* We don't want to include the .ctor section from",
   "       the crtend.o file until after the sorted ctors.",
   "       The .ctor section from the crtend file contains the",
   "       end of ctors marker and it must be last */",
   "    KEEP (*(EXCLUDE_FILE (*crtend.o *crtend?.o ) .ctors))",
   "    KEEP (*(SORT(.ctors.*)))",
   "    KEEP (*(.ctors))",
   "    . = ALIGN(4) ;",
   "  \x7d >kseg0_program_mem",
   "",
   "  .dtors   :",
   "  \x7b",
   "    KEEP (*crtbegin.o(.dtors))",
   "    KEEP (*crtbegin?.o(.dtors))",
   "    KEEP (*(EXCLUDE_FILE (*crtend.o *crtend?.o ) .dtors))",
   "    KEEP (*(SORT(.dtors.*)))",
   "    KEEP (*(.dtors))",
   "    . = ALIGN(4) ;",
   "  \x7d >kseg0_program_mem",
   "",
   "  .rodata   :",
   "  \x7b",
   "    *( .gnu.linkonce.r.*)",
   "    *(.rodata1)",
   "    . = ALIGN(4) ;",
   "  \x7d >kseg0_program_mem",
   "",
   "  /* Small initialized constant global and static data can be placed in the " ++
       ".sdata2 section.  This",
   "   * is different from .sdata, which contains small initialized non-constant " ++
       "global and static data.",
   "   */",
   "  .sdata2 ALIGN(4) :",
   "  \x7b",
   "    *(.sdata2 .sdata2.* .gnu.linkonce.s2.*)",
   "    . = ALIGN(4) ;",
   "  \x7d >kseg0_program_mem",
   "",
   "  /* Uninitialized constant global and static data (i.e., variables which will " ++
       "always be zero).",
   "   * Again, this is different from .sbss, which contains small non-initialized, " ++
       "non-constant global",
   "   * and static data.",
   "   */",
   "  .sbss2 ALIGN(4) :",
   "  \x7b",
   "    *(.sbss2 .sbss2.* .gnu.linkonce.sb2.*)",
   "    . = ALIGN(4) ;",
   "  \x7d >kseg0_program_mem",
   "",
   "  .eh_frame_hdr   :",
   "  \x7b",
   "    *(.eh_frame_hdr)",
   "  \x7d >kseg0_program_mem",
   "    . = ALIGN(4) ;",
   "",
   "  .eh_frame   : ONLY_IF_RO",
   "  \x7b",
   "    KEEP (*(.eh_frame))",
   "  \x7d >kseg0_program_mem",
   "    . = ALIGN(4) ;",
   "",
   "  .gcc_except_table   : ONLY_IF_RO",
   "  \x7b",
   "    *(.gcc_except_table .gcc_except_table.*)",
   "  \x7d >kseg0_program_mem",
   "    . = ALIGN(4) ;"]

/-- The sections of data, heap and stack. -/
def dataSections (region : String) : List String :=
  ["  .jcr   :",
   "  \x7b",
   "    KEEP (*(.jcr))",
   "    . = ALIGN(4) ;",
   "  \x7d >" ++ region,
   "",
   "  .eh_frame    : ONLY_IF_RW",
   "  \x7b",
   "    KEEP (*(.eh_frame))",
   "  \x7d >" ++ region,
   "    . = ALIGN(4) ;",
   "",
   "  .gcc_except_table    : ONLY_IF_RW",
   "  \x7b",
   "    *(.gcc_except_table .gcc_except_table.*)",
   "  \x7d >" ++ region,
   "    . = ALIGN(4) ;",
   "",
   "  .persist (NOLOAD) :",
   "  \x7b",
   "    _persist_begin = .;",
   "    *(.persist .persist.*)",
   "    *(.pbss .pbss.*)",
   "    . = ALIGN(4) ;",
   "    _persist_end = .;",
   "  \x7d >" ++ region,
   "",
   "  .data   :",
   "  \x7b",
   "    *(.data)",
   "    *(.data.*)",
   "    *( .gnu.linkonce.d.*)",
   "    SORT(CONSTRUCTORS)",
   "    *(.data1)",
   "    . = ALIGN(4) ;",
   "  \x7d >" ++ region,
   "",
   "  . = .;",
   "  _gp = ALIGN(16) + 0x7ff0;",
   "",
   "  .got ALIGN(4) :",
   "  \x7b",
   "    *(.got.plt) *(.got)",
   "    . = ALIGN(4) ;",
   "  \x7d >" ++ region,
   "",
   "  /* We want the small data sections together, so single-instruction offsets can " ++
       "access them all,",
   "   * and initialized data all before uninitialized, so we can shorten the on-disk " ++
       "segment size.",
   "   */",
   "  .sdata ALIGN(4) :",
   "  \x7b",
   "    _sdata_begin = . ;",
   "    *(.sdata .sdata.* .gnu.linkonce.s.*)",
   "    . = ALIGN(4) ;",
   "    _sdata_end = . ;",
   "  \x7d >" ++ region,
   "",
   "  .lit8           :",
   "  \x7b",
   "    *(.lit8)",
   "  \x7d >" ++ region,
   "  .lit4           :",
   "  \x7b",
   "    *(.lit4)",
   "  \x7d >" ++ region,
   "",
   "  . = ALIGN (4) ;",
   "  _data_end = . ;",
   "  _bss_begin = . ;",
   "",
   "  .sbss ALIGN(4) :",
   "  \x7b",
   "    _sbss_begin = . ;",
   "    *(.dynsbss)",
   "    *(.sbss .sbss.* .gnu.linkonce.sb.*)",
   "    *(.scommon)",
   "    _sbss_end = . ;",
   "    . = ALIGN(4) ;",
   "  \x7d >" ++ region,
   "",
   "  .bss     :",
   "  \x7b",
   "    *(.bss)",
   "    *(.bss.*)",
   "    *(.dynbss)",
   "    *(.gnu.linkonce.b.*)",
   "    *(COMMON)",
   "   /* Align here to ensure that the .bss section occupies space up to",
   "      _end.  Align after .bss to ensure correct alignment even if the",
   "      .bss section disappears because there are no input sections. */",
   "   . = ALIGN(. != 0 ? 4 : 1);",
   "  \x7d >" ++ region,
   "",
   "  . = ALIGN(4) ;",
   "  _end = . ;",
   "  _bss_end = . ;",
   "",
   "  .heap :",
   "  \x7b",
   "    _heap_start = . ;",
   "    . += _min_heap_size ;",
   "    _heap_end = . ;",
   "  \x7d >" ++ region,
   "",
   "  . = ALIGN(4) ;",
   "",
   "  /* Allocate some space for a stack at the end of memory because the stack grows " ++
       "downward.  This",
   "   * is just the minimum stack size that will be allowed; the stack can actually " ++
       "grow larger. Use",
   "   * this symbol to check for overflow.",
   "   */",
   "  _stack_limit = . ;",
   "  .stack ORIGIN(" ++ region ++ ") + LENGTH(" ++ region ++ ") - _min_stack_size :",
   "  \x7b",
   "    . += _min_stack_size ;",
   "  \x7d >" ++ region,
   "  . = ALIGN(4) ;",
   "  _stack = . - 4 ;",
   "  ASSERT(_stack < ORIGIN(" ++ region ++ ") + LENGTH(" ++ region ++
       "), \"Error: Not enough room for stack.\")"]

/-- The sections that only debuggers read. -/
def debugSections : List String :=
  ["  /* The .pdr section belongs in the absolute section */",
   "  /DISCARD/ : \x7b *(.pdr) \x7d",
   "  .gptab.sdata : \x7b *(.gptab.data) *(.gptab.sdata) \x7d",
   "  .gptab.sbss : \x7b *(.gptab.bss) *(.gptab.sbss) \x7d",
   "  .mdebug.abi32 0 : \x7b KEEP(*(.mdebug.abi32)) \x7d",
   "  .mdebug.abiN32 0 : \x7b KEEP(*(.mdebug.abiN32)) \x7d",
   "  .mdebug.abi64 0 : \x7b KEEP(*(.mdebug.abi64)) \x7d",
   "  .mdebug.abiO64 0 : \x7b KEEP(*(.mdebug.abiO64)) \x7d",
   "  .mdebug.eabi32 0 : \x7b KEEP(*(.mdebug.eabi32)) \x7d",
   "  .mdebug.eabi64 0 : \x7b KEEP(*(.mdebug.eabi64)) \x7d",
   "  .gcc_compiled_long32 : \x7b KEEP(*(.gcc_compiled_long32)) \x7d",
   "  .gcc_compiled_long64 : \x7b KEEP(*(.gcc_compiled_long64)) \x7d",
   "  /* Stabs debugging sections.  */",
   "  .stab          0 : \x7b *(.stab) \x7d",
   "  .stabstr       0 : \x7b *(.stabstr) \x7d",
   "  .stab.excl     0 : \x7b *(.stab.excl) \x7d",
   "  .stab.exclstr  0 : \x7b *(.stab.exclstr) \x7d",
   "  .stab.index    0 : \x7b *(.stab.index) \x7d",
   "  .stab.indexstr 0 : \x7b *(.stab.indexstr) \x7d",
   "  .comment       0 : \x7b *(.comment) \x7d",
   "  /* DWARF debug sections used by MPLAB X for source-level debugging.",
   "     Symbols in the DWARF debugging sections are relative to the beginning",
   "     of the section so we begin them at 0.  */",
   "  /* DWARF 1 */",
   "  .debug          0 : \x7b *.elf(.debug) *(.debug) \x7d",
   "  .line           0 : \x7b *.elf(.line) *(.line) \x7d",
   "  /* GNU DWARF 1 extensions */",
   "  .debug_srcinfo  0 : \x7b *.elf(.debug_srcinfo) *(.debug_srcinfo) \x7d",
   "  .debug_sfnames  0 : \x7b *.elf(.debug_sfnames) *(.debug_sfnames) \x7d",
   "  /* DWARF 1.1 and DWARF 2 */",
   "  .debug_aranges  0 : \x7b *.elf(.debug_aranges) *(.debug_aranges) \x7d",
   "  .debug_pubnames 0 : \x7b *.elf(.debug_pubnames) *(.debug_pubnames) \x7d",
   "  /* DWARF 2 */",
   "  .debug_info     0 : \x7b *.elf(.debug_info .gnu.linkonce.wi.*) *(.debug_info " ++
       ".gnu.linkonce.wi.*) \x7d",
   "  .debug_abbrev   0 : \x7b *.elf(.debug_abbrev) *(.debug_abbrev) \x7d",
   "  .debug_line     0 : \x7b *.elf(.debug_line) *(.debug_line) \x7d",
   "  .debug_frame    0 : \x7b *.elf(.debug_frame) *(.debug_frame) \x7d",
   "  .debug_str      0 : \x7b *.elf(.debug_str) *(.debug_str) \x7d",
   "  .debug_loc      0 : \x7b *.elf(.debug_loc) *(.debug_loc) \x7d",
   "  .debug_macinfo  0 : \x7b *.elf(.debug_macinfo) *(.debug_macinfo) \x7d",
   "  /* SGI/MIPS DWARF 2 extensions */",
   "  .debug_weaknames 0 : \x7b *.elf(.debug_weaknames) *(.debug_weaknames) \x7d",
   "  .debug_funcnames 0 : \x7b *.elf(.debug_funcnames) *(.debug_funcnames) \x7d",
   "  .debug_typenames 0 : \x7b *.elf(.debug_typenames) *(.debug_typenames) \x7d",
   "  .debug_varnames  0 : \x7b *.elf(.debug_varnames) *(.debug_varnames) \x7d",
   "  .debug_pubtypes 0 : \x7b *.elf(.debug_pubtypes) *(.debug_pubtypes) \x7d",
   "  .debug_ranges   0 : \x7b *.elf(.debug_ranges) *(.debug_ranges) \x7d",
   "  /DISCARD/ : \x7b *(.rel.dyn) \x7d",
   "  .gnu.attributes 0 : \x7b KEEP (*(.gnu.attributes)) \x7d",
   "  /DISCARD/ : \x7b *(.note.GNU-stack) \x7d",
   "  /DISCARD/ : \x7b *(.note.GNU-stack) *(.gnu_debuglink) *(.gnu.lto_*) *(.discard) \x7d"]

/-- A vector that can be placed on its own. -/
def variableVector (n : String) : List String :=
  ["    . = ALIGN(4) ;",
   "    KEEP(*(.vector_" ++ n ++ "))",
   "    __vector_offset_" ++ n ++ " = (SIZEOF(.vector_" ++ n ++
       ") > 0 ? (. - _ebase_address - SIZEOF(.vector_" ++ n ++ ")) : __vector_offset_default);"]

/-- A jump to a vector in microMIPS instructions. -/
def shortTrampoline (n : String) : List String :=
  ["  .vector_dispatch_" ++ n ++ " _ebase_address + 0x200 + ((_vector_spacing << 3) * " ++ n ++
       ") :",
   "  \x7b",
   "    __vector_target_" ++ n ++ " = (SIZEOF(.vector_" ++ n ++ ") > 0 ? ADDR(.vector_" ++ n ++
       ") : ADDR(.vector_default));",
   "    LONG(0xD4000000 | ((__vector_target_" ++ n ++ " >> 1) & 0x03FFFFFF))",
   "    LONG(0x00000800)",
   "  \x7d > exception_mem"]

/-- A jump to a vector in 32 bit instructions. -/
def longTrampoline (n : String) : List String :=
  ["  .vector_dispatch_" ++ n ++ " _ebase_address + 0x200 + ((_vector_spacing << 5) * " ++ n ++
       ") :",
   "  \x7b",
   "    __vector_target_" ++ n ++ " = (SIZEOF(.vector_" ++ n ++ ") > 0 ? ADDR(.vector_" ++ n ++
       ") : ADDR(.vector_default));",
   "    LONG(0x3C1A0000 | ((__vector_target_" ++ n ++ " >> 16) & 0xFFFF))",
   "    LONG(0x375A0000 | ((__vector_target_" ++ n ++ ") & 0xFFFF))",
   "    LONG(0x03400008)",
   "    LONG(0x00000040)",
   "  \x7d > exception_mem"]

end ChipSupport.MipsScript
