/-!
# Fixed parts of the Arm script

The sections of a linker script for an Arm device, in the order in which they are written.
-/

namespace ChipSupport.ArmScript

/-- What stands before the memory regions: the minimal sizes of stack and heap. -/
def preamble (stack heap : String) : List String :=
  ["OUTPUT_FORMAT(\"elf32-littlearm\", \"elf32-littlearm\", \"elf32-littlearm\")",
   "OUTPUT_ARCH(arm)",
   "SEARCH_DIR(.)",
   "",
   "ENTRY(Reset_Handler)",
   "",
   "/* Provide for a minimum stack and heap size; these can be overridden using the " ++
       "linker's --defsym",
   " * option on the command line.",
   " */",
   "EXTERN (_min_stack_size _min_heap_size)",
   "PROVIDE(_min_stack_size = " ++ stack ++ ");",
   "PROVIDE(_min_heap_size = " ++ heap ++ ");",
   ""]

/-- The symbols for the ends of memory. -/
def memoryEnds : List String :=
  ["__rom_end = ORIGIN(rom) + LENGTH(rom);",
   "__ram_end = ORIGIN(ram) + LENGTH(ram);"]

/-- The sections of vectors, programs and constants. -/
def codeSections : List String :=
  ["  .vectors :",
   "  \x7b",
   "    . = ALIGN(4);",
   "    _sfixed = .;",
   "    __svectors = .;",
   "    KEEP(*(.vectors .vectors.* .vectors_default .vectors_default.*))",
   "    KEEP(*(.isr_vector))",
   "    KEEP(*(.reset*))",
   "    KEEP(*(.after_vectors))",
   "    __evectors = .;",
   "  \x7d > rom",
   "",
   "  .text :",
   "  \x7b",
   "    . = ALIGN(4);",
   "    *(.text .text.* .gnu.linkonce.t.*)",
   "    *(.glue_7t) *(.glue_7)",
   "    *(.rodata .rodata* .gnu.linkonce.r.*)",
   "    *(.ARM.extab* .gnu.linkonce.armextab.*)",
   "",
   "    /* Support C constructors, and C destructors in both user code",
   "       and the C library. This also provides support for C++ code. */",
   "    . = ALIGN(4);",
   "    KEEP(*(.init))",
   "    . = ALIGN(4);",
   "    __preinit_array_start = .;",
   "    KEEP (*(.preinit_array))",
   "    __preinit_array_end = .;",
   "",
   "    . = ALIGN(4);",
   "    __init_array_start = .;",
   "    KEEP (*(SORT(.init_array.*)))",
   "    KEEP (*(.init_array))",
   "    __init_array_end = .;",
   "",
   "    . = ALIGN(0x4);",
   "    KEEP (*crtbegin.o(.ctors))",
   "    KEEP (*(EXCLUDE_FILE (*crtend.o) .ctors))",
   "    KEEP (*(SORT(.ctors.*)))",
   "    KEEP (*crtend.o(.ctors))",
   "",
   "    . = ALIGN(4);",
   "    KEEP(*(.fini))",
   "",
   "    . = ALIGN(4);",
   "    __fini_array_start = .;",
   "    KEEP (*(.fini_array))",
   "    KEEP (*(SORT(.fini_array.*)))",
   "    __fini_array_end = .;",
   "",
   "    KEEP (*crtbegin.o(.dtors))",
   "    KEEP (*(EXCLUDE_FILE (*crtend.o) .dtors))",
   "    KEEP (*(SORT(.dtors.*)))",
   "    KEEP (*crtend.o(.dtors))",
   "",
   "    . = ALIGN(4);",
   "",
   "    KEEP(*(.eh_frame*))",
   "",
   "    _efixed = .;            /* End of text section */",
   "  \x7d > rom",
   "",
   "  /* .ARM.exidx is sorted, so has to go in its own output section.  */",
   "  PROVIDE_HIDDEN (__exidx_start = .);",
   "  .ARM.exidx :",
   "  \x7b",
   "    *(.ARM.exidx* .gnu.linkonce.armexidx.*)",
   "  \x7d > rom",
   "  PROVIDE_HIDDEN (__exidx_end = .);",
   "",
   "  _etext = ALIGN(4);",
   "  __etext = _etext;"]

/-- Data that should bypass the cache. -/
def uncachedData : List String :=
  ["    /* For data that should bypass the cache (eg. will be accessed by DMA). */",
   "    /* User code must configure the MPU for this section. */",
   "    __uncached_data_start__ = .;",
   "    *(.uncacheddata .uncacheddata.*)",
   "    . = ALIGN(. - __uncached_data_start__ <= 32 ? 32 : 1 << LOG2CEIL(. - " ++
       "__uncached_data_start__));",
   "    __uncached_data_end__ = .;"]

/-- The start of the section of initialized data. -/
def dataStart : List String :=
  ["  .relocate : AT (_etext)",
   "  \x7b",
   "    . = ALIGN(4);",
   "    _srelocate = .;",
   "    __data_start__ = .;"]

/-- The rest of the section of initialized data, and the start of persistent data. -/
def dataRest : List String :=
  ["    *(.ramfunc .ramfunc.*);",
   "    *(.data .data.*);",
   "    . = ALIGN(4);",
   "    __data_end__ = .;",
   "    _erelocate = .;",
   "  \x7d > ram",
   "",
   "  /* Use the 'section' attribute to put data in this section that you want to " ++
       "persist through",
   "   * software resets.",
   "   */",
   "  .persist (NOLOAD) :",
   "  \x7b"]

/-- Persistent data begins in a cache line of its own. -/
def cacheLineAlign : List String :=
  ["    /* Ensure normal and persistent sections do not overlap 32-byte cache line. */",
   "    . = ALIGN(32) ;"]

/-- The rest of persistent data, aligned at its end, and data without initial values. -/
def persistRest (align : String) : List String :=
  ["    _persist_begin = .;",
   "    __persist_start__ = .;",
   "    *(.persist .persist.*)",
   "    *(.pbss .pbss.*)",
   "    . = ALIGN(" ++ align ++ ") ;",
   "    __persist_end__ = .;",
   "    _persist_end = .;",
   "  \x7d > ram",
   "",
   "  .bss (NOLOAD) :",
   "  \x7b",
   "    . = ALIGN(4);",
   "    __bss_start__ = .;",
   "    _sbss = . ;",
   "    _szero = .;",
   "    *(.bss .bss.*);",
   "    *(COMMON)",
   "    . = ALIGN(4);",
   "    __bss_end__ = .;",
   "    _ebss = . ;",
   "    _ezero = .;",
   "  \x7d > ram"]

/-- The sections of heap and stack. -/
def runtimeSections : List String :=
  ["  .heap :",
   "  \x7b",
   "    . = ALIGN(8) ;",
   "    _sheap = . ;",
   "    . += _min_heap_size ;",
   "    . = ALIGN(8) ;",
   "    _eheap = . ;",
   "    __HeapLimit = . ;",
   "  \x7d > ram",
   "",
   "  /* Allocate some space for a stack at the end of memory because the stack grows " ++
       "downward.  This",
   "   * is just the minimum stack size that will be allowed; the stack can actually " ++
       "grow larger. Use",
   "   * this symbol to check for overflow.",
   "   */",
   "  __StackLimit = . ;",
   "  /* Ensure stack size is properly aligned. */",
   "  _min_stack_size = (_min_stack_size + 7) & ~0x07 ;",
   "  .stack ORIGIN(ram) + LENGTH(ram) - _min_stack_size :",
   "  \x7b",
   "    . = ALIGN(8) ;",
   "    _sstack = . ;",
   "    . += _min_stack_size ;",
   "    _estack = . ;",
   "    __StackTop = . ;",
   "  \x7d > ram",
   "  PROVIDE(__stack = __StackTop);",
   "",
   "  ASSERT((_estack - __StackLimit) >= _min_stack_size, \"Error: Not enough room " ++
       "for stack.\");",
   "",
   "  . = ALIGN(4);",
   "  _end = . ;",
   "  _ram_end_ = ORIGIN(ram) + LENGTH(ram) -1 ;"]

end ChipSupport.ArmScript
