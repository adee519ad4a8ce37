import SicXe.Registry

/-!
# SicXe.Registry.Standard

The instruction set of the SIC/XE machine as a registry text.
-/

namespace SicXe.Registry

/-- The standard instructions, one a line and in alphabetical order. -/
def standardText : String :=
  String.join
    ["ADD\t18\t3\t1\n", "ADDF\t58\t3\t1\n", "ADDR\t90\t2\t2\n", "AND\t40\t3\t1\n",
      "CLEAR\tB4\t2\t1\n", "COMP\t28\t3\t1\n", "COMPF\t88\t3\t1\n", "COMPR\tA0\t2\t2\n",
      "DIV\t24\t3\t1\n", "DIVF\t64\t3\t1\n", "DIVR\t9C\t2\t2\n", "FIX\tC4\t1\t0\n",
      "FLOAT\tC0\t1\t0\n", "HIO\tF4\t1\t0\n", "J\t3C\t3\t1\n", "JEQ\t30\t3\t1\n",
      "JGT\t34\t3\t1\n", "JLT\t38\t3\t1\n", "JSUB\t48\t3\t1\n", "LDA\t00\t3\t1\n",
      "LDB\t68\t3\t1\n", "LDCH\t50\t3\t1\n", "LDF\t70\t3\t1\n", "LDL\t08\t3\t1\n",
      "LDS\t6C\t3\t1\n", "LDT\t74\t3\t1\n", "LDX\t04\t3\t1\n", "LPS\tD0\t3\t1\n",
      "MUL\t20\t3\t1\n", "MULF\t60\t3\t1\n", "MULR\t98\t2\t2\n", "NORM\tC8\t1\t0\n",
      "OR\t44\t3\t1\n", "RD\tD8\t3\t1\n", "RMO\tAC\t2\t2\n", "RSUB\t4C\t3\t0\n",
      "SHIFTL\tA4\t2\t2\n", "SHIFTR\tA8\t2\t2\n", "SIO\tF0\t1\t0\n", "SSK\tEC\t3\t1\n",
      "STA\t0C\t3\t1\n", "STB\t78\t3\t1\n", "STCH\t54\t3\t1\n", "STF\t80\t3\t1\n",
      "STI\tD4\t3\t1\n", "STL\t14\t3\t1\n", "STS\t7C\t3\t1\n", "STSW\tE8\t3\t1\n",
      "STT\t84\t3\t1\n", "STX\t10\t3\t1\n", "SUB\t1C\t3\t1\n", "SUBF\t5C\t3\t1\n",
      "SUBR\t94\t2\t2\n", "SVC\tB0\t2\t1\n", "TD\tE0\t3\t1\n", "TIO\tF8\t1\t0\n",
      "TIX\t2C\t3\t1\n", "TIXR\tB8\t2\t1\n", "WD\tDC\t3\t1\n"]

end SicXe.Registry
