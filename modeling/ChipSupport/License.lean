import ChipSupport.Calendar
import ChipSupport.Comment
import ChipSupport.Text.Template

/-!
# Licence blocks

Every generated file begins with a comment that says when it was generated and under which terms it
may be used: those of the generator and those of the device vendor.

## Main definitions

* `License.vendor?` — the terms of a vendor, by name.
* `License` — the templates of the block.
* `License.text`, `License.block` — the text and the comment.
-/

namespace ChipSupport

namespace License

/-- The terms of the generator itself, with a placeholder for the year. -/
def generatorTerms : String :=
  String.intercalate "\n"
    ["Copyright (c) $year, the deviceheaders authors",
     "All rights reserved.",
     "",
     "Redistribution and use in source and binary forms, with or without modification, " ++
       "are permitted provided that the following conditions are met:",
     "",
     "* Redistributions of source code must retain the above copyright notice, this",
     "  list of conditions and the following disclaimer.",
     "",
     "* Redistributions in binary form must reproduce the above copyright notice,",
     "  this list of conditions and the following disclaimer in the documentation",
     "  and/or other materials provided with the distribution.",
     "",
     "* Neither the name of the copyright holder nor the names of its",
     "  contributors may be used to endorse or promote products derived from",
     "  this software without specific prior written permission.",
     "",
     "THIS SOFTWARE IS PROVIDED BY THE COPYRIGHT HOLDERS AND CONTRIBUTORS \"AS IS\" AND ANY " ++
       "EXPRESS OR IMPLIED WARRANTIES, INCLUDING, BUT NOT LIMITED TO, THE IMPLIED " ++
       "WARRANTIES OF MERCHANTABILITY AND FITNESS FOR A PARTICULAR PURPOSE ARE DISCLAIMED. " ++
       "IN NO EVENT SHALL THE COPYRIGHT HOLDER OR CONTRIBUTORS BE LIABLE FOR ANY DIRECT, " ++
       "INDIRECT, INCIDENTAL, SPECIAL, EXEMPLARY, OR CONSEQUENTIAL DAMAGES (INCLUDING, BUT " ++
       "NOT LIMITED TO, PROCUREMENT OF SUBSTITUTE GOODS OR SERVICES; LOSS OF USE, DATA, OR " ++
       "PROFITS; OR BUSINESS INTERRUPTION) HOWEVER CAUSED AND ON ANY THEORY OF LIABILITY, " ++
       "WHETHER IN CONTRACT, STRICT LIABILITY, OR TORT (INCLUDING NEGLIGENCE OR OTHERWISE) " ++
       "ARISING IN ANY WAY OUT OF THE USE OF THIS SOFTWARE, EVEN IF ADVISED OF THE " ++
       "POSSIBILITY OF SUCH DAMAGE."]

/-- The terms of redistribution in source and binary form. -/
def vendorBsd : String :=
  String.intercalate "\n"
    ["Copyright (c) 2018, Microchip Technology Inc. and its subsidiaries (\"Microchip\")",
     "All rights reserved.",
     "",
     "This software is developed by Microchip Technology Inc. and its subsidiaries " ++
       "(\"Microchip\").",
     "",
     "Redistribution and use in source and binary forms, with or without modification, " ++
       "are permitted provided that the following conditions are met:",
     "",
     "1.      Redistributions of source code must retain the above copyright",
     "        notice, this list of conditions and the following disclaimer.",
     "2.      Redistributions in binary form must reproduce the above",
     "        copyright notice, this list of conditions and the following",
     "        disclaimer in the documentation and/or other materials provided",
     "        with the distribution.",
     "3.      Microchip's name may not be used to endorse or promote products",
     "        derived from this software without specific prior written",
     "        permission.",
     "",
     "THIS SOFTWARE IS PROVIDED BY MICROCHIP \"AS IS\" AND ANY EXPRESS OR IMPLIED " ++
       "WARRANTIES, INCLUDING, BUT NOT LIMITED TO, THE IMPLIED WARRANTIES OF " ++
       "MERCHANTABILITY AND FITNESS FOR PURPOSE ARE DISCLAIMED. IN NO EVENT SHALL MICROCHIP " ++
       "BE LIABLE FOR ANY DIRECT, INDIRECT, INCIDENTAL, SPECIAL, EXEMPLARY, OR " ++
       "CONSEQUENTIAL DAMAGES (INCLUDING BUT NOT LIMITED TO PROCUREMENT OF SUBSTITUTE GOODS " ++
       "OR SERVICES; LOSS OF USE, DATA OR PROFITS; OR BUSINESS INTERRUPTION) HOWSOEVER " ++
       "CAUSED AND ON ANY THEORY OF LIABILITY, WHETHER IN CONTRACT, STRICT LIABILITY, OR " ++
       "TORT (INCLUDING NEGLIGENCE OR OTHERWISE) ARISING IN ANY WAY OUT OF THE USE OF THIS " ++
       "SOFTWARE, EVEN IF ADVISED OF THE POSSIBILITY OF SUCH DAMAGE."]

/-- The terms that refer to a published licence. -/
def vendorApache : String :=
  String.intercalate "\n"
    ["Copyright (c) 2018 Microchip Technology Inc.",
     "",
     "SPDX-License-Identifier: Apache-2.0",
     "",
     "Licensed under the Apache License, Version 2.0 (the \"License\"); you may not use " ++
       "this file except in compliance with the License. You may obtain a copy of the " ++
       "License at",
     "",
     "http://www.apache.org/licenses/LICENSE-2.0",
     "",
     "Unless required by applicable law or agreed to in writing, software distributed " ++
       "under the License is distributed on an \"AS IS\" BASIS, WITHOUT WARRANTIES OR " ++
       "CONDITIONS OF ANY KIND, either express or implied. See the License for the specific " ++
       "language governing permissions and limitations under the License."]

/-- The terms for use with the vendor's products. -/
def vendorStandard : String :=
  String.intercalate "\n"
    ["Copyright (c) 2019 Microchip Technology Inc. and its subsidiaries.",
     "",
     "Subject to your compliance with these terms, you may use Microchip software and any " ++
       "derivatives exclusively with Microchip products. It is your responsibility to " ++
       "comply with third party license terms applicable to your use of third party " ++
       "software (including open source software) that may accompany Microchip software.",
     "",
     "THIS SOFTWARE IS SUPPLIED BY MICROCHIP \"AS IS\". NO WARRANTIES, WHETHER EXPRESS, " ++
       "IMPLIED OR STATUTORY, APPLY TO THIS SOFTWARE, INCLUDING ANY IMPLIED WARRANTIES OF " ++
       "NON-INFRINGEMENT, MERCHANTABILITY, AND FITNESS FOR A PARTICULAR PURPOSE.",
     "",
     "IN NO EVENT WILL MICROCHIP BE LIABLE FOR ANY INDIRECT, SPECIAL, PUNITIVE, " ++
       "INCIDENTAL OR CONSEQUENTIAL LOSS, DAMAGE, COST OR EXPENSE OF ANY KIND WHATSOEVER " ++
       "RELATED TO THE SOFTWARE, HOWEVER CAUSED, EVEN IF MICROCHIP HAS BEEN ADVISED OF THE " ++
       "POSSIBILITY OR THE DAMAGES ARE FORESEEABLE. TO THE FULLEST EXTENT ALLOWED BY LAW, " ++
       "MICROCHIP'S TOTAL LIABILITY ON ALL CLAIMS IN ANY WAY RELATED TO THIS SOFTWARE WILL " ++
       "NOT EXCEED THE AMOUNT OF FEES, IF ANY, THAT YOU HAVE PAID DIRECTLY TO MICROCHIP FOR " ++
       "THIS SOFTWARE."]

/-- The arrangement of the block. -/
def arrangement : String :=
  String.intercalate "\n"
    ["$generatedBy",
     "",
     "$generator",
     "",
     "                                               ******",
     "",
     "This file is generated based on source files included with Microchip Technology's " ++
       "XC32 toolchain.  Microchip's license is reproduced below:",
     "",
     "$vendor"]

/-- The terms of the vendor, by name. -/
def vendor? (kind : String) : Option String :=
  [("bsd", vendorBsd), ("apache", vendorApache), ("microchip", vendorStandard)].lookup kind

end License

/-- The templates of a licence block and the day that it states. -/
structure License where
  /-- The whole block. -/
  header : String := License.arrangement
  /-- The terms of the generator. -/
  generator : String := License.generatorTerms
  /-- When the file was generated. -/
  generatedBy : String := "Generated by deviceheaders on $date."
  /-- The day. -/
  today : Date
  deriving Repr, Inhabited

namespace License

/-- The text of the block with the terms of the vendor named. -/
def text (l : License) (kind : String) : Except Fault String := do
  let generatedBy ← Template.fill l.generatedBy [("date", l.today.render)]
  let generator ← Template.fill l.generator [("year", Numeral.natural l.today.year)]
  match vendor? kind with
  | none => throw (.licenseUnknown kind)
  | some vendor =>
    Template.fill l.header
      [("generatedBy", generatedBy), ("generator", generator), ("vendor", vendor)]

/-- The block as a comment, with an empty line after it. -/
def block (l : License) (kind : String) : Except Fault (List Line) := do
  let text ← l.text kind
  return Comment.block text ++ [Line.blank]

end License

end ChipSupport
