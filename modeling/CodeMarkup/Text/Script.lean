import CodeMarkup.Text.RangeTable

/-! # Scripts

Every code point belongs to one script, and some are used with several others besides
(`Script.extensions`). Scripts go by their codes of four letters. The tables are those of edition
16.0 of the Unicode character database. -/

namespace CodeMarkup.Text

namespace Script

/-- The scripts of all code points. -/
def written : String :=
  "41Zyyy 1aLatn 6Zyyy 1aLatn 2fZyyy 1Latn fZyyy 1Latn 5Zyyy 17Latn 1Zyyy 1fLatn 1Zyyy " ++
  "1c1Latn 27Zyyy 5Latn 5Zyyy 2Bopo 14Zyyy 70Zinh 4Grek 1Zyyy 3Grek 2Zzzz 4Grek 1Zyyy 1Grek " ++
  "4Zzzz 1Grek 1Zyyy 1Grek 1Zyyy 3Grek 1Zzzz 1Grek 1Zzzz 14Grek 1Zzzz 3fGrek eCopt 10Grek " ++
  "85Cyrl 2Zinh a9Cyrl 1Zzzz 26Armn 2Zzzz 32Armn 2Zzzz 3Armn 1Zzzz 37Hebr 8Zzzz 1bHebr 4Zzzz " ++
  "6Hebr bZzzz 5Arab 1Zyyy 6Arab 1Zyyy eArab 1Zyyy 3Arab 1Zyyy 20Arab 1Zyyy aArab bZinh " ++
  "1aArab 1Zinh 6cArab 1Zyyy 22Arab eSyrc 1Zzzz 3cSyrc 2Zzzz 3Syrc 30Arab 32Thaa eZzzz " ++
  "3bNkoo 2Zzzz 3Nkoo 2eSamr 2Zzzz fSamr 1Zzzz 1cMand 2Zzzz 1Mand 1Zzzz bSyrc 5Zzzz 1fArab " ++
  "1Zzzz 2Arab 5Zzzz 4bArab 1Zyyy 1dArab 51Deva 4Zinh fDeva 2Zyyy 1aDeva 4Beng 1Zzzz 8Beng " ++
  "2Zzzz 2Beng 2Zzzz 16Beng 1Zzzz 7Beng 1Zzzz 1Beng 3Zzzz 4Beng 2Zzzz 9Beng 2Zzzz 2Beng " ++
  "2Zzzz 4Beng 8Zzzz 1Beng 4Zzzz 2Beng 1Zzzz 5Beng 2Zzzz 19Beng 2Zzzz 3Guru 1Zzzz 6Guru " ++
  "4Zzzz 2Guru 2Zzzz 16Guru 1Zzzz 7Guru 1Zzzz 2Guru 1Zzzz 2Guru 1Zzzz 2Guru 2Zzzz 1Guru " ++
  "1Zzzz 5Guru 4Zzzz 2Guru 2Zzzz 3Guru 3Zzzz 1Guru 7Zzzz 4Guru 1Zzzz 1Guru 7Zzzz 11Guru " ++
  "aZzzz 3Gujr 1Zzzz 9Gujr 1Zzzz 3Gujr 1Zzzz 16Gujr 1Zzzz 7Gujr 1Zzzz 2Gujr 1Zzzz 5Gujr " ++
  "2Zzzz aGujr 1Zzzz 3Gujr 1Zzzz 3Gujr 2Zzzz 1Gujr fZzzz 4Gujr 2Zzzz cGujr 7Zzzz 7Gujr 1Zzzz " ++
  "3Orya 1Zzzz 8Orya 2Zzzz 2Orya 2Zzzz 16Orya 1Zzzz 7Orya 1Zzzz 2Orya 1Zzzz 5Orya 2Zzzz " ++
  "9Orya 2Zzzz 2Orya 2Zzzz 3Orya 7Zzzz 3Orya 4Zzzz 2Orya 1Zzzz 5Orya 2Zzzz 12Orya aZzzz " ++
  "2Taml 1Zzzz 6Taml 3Zzzz 3Taml 1Zzzz 4Taml 3Zzzz 2Taml 1Zzzz 1Taml 1Zzzz 2Taml 3Zzzz 2Taml " ++
  "3Zzzz 3Taml 3Zzzz cTaml 4Zzzz 5Taml 3Zzzz 3Taml 1Zzzz 4Taml 2Zzzz 1Taml 6Zzzz 1Taml eZzzz " ++
  "15Taml 5Zzzz dTelu 1Zzzz 3Telu 1Zzzz 17Telu 1Zzzz 10Telu 2Zzzz 9Telu 1Zzzz 3Telu 1Zzzz " ++
  "4Telu 7Zzzz 2Telu 1Zzzz 3Telu 2Zzzz 1Telu 2Zzzz 4Telu 2Zzzz aTelu 7Zzzz 9Telu dKnda 1Zzzz " ++
  "3Knda 1Zzzz 17Knda 1Zzzz aKnda 1Zzzz 5Knda 2Zzzz 9Knda 1Zzzz 3Knda 1Zzzz 4Knda 7Zzzz " ++
  "2Knda 6Zzzz 2Knda 1Zzzz 4Knda 2Zzzz aKnda 1Zzzz 3Knda cZzzz dMlym 1Zzzz 3Mlym 1Zzzz " ++
  "33Mlym 1Zzzz 3Mlym 1Zzzz 6Mlym 4Zzzz 10Mlym 2Zzzz 1aMlym 1Zzzz 3Sinh 1Zzzz 12Sinh 3Zzzz " ++
  "18Sinh 1Zzzz 9Sinh 1Zzzz 1Sinh 2Zzzz 7Sinh 3Zzzz 1Sinh 4Zzzz 6Sinh 1Zzzz 1Sinh 1Zzzz " ++
  "8Sinh 6Zzzz aSinh 2Zzzz 3Sinh cZzzz 3aThai 4Zzzz 1Zyyy 1cThai 25Zzzz 2Laoo 1Zzzz 1Laoo " ++
  "1Zzzz 5Laoo 1Zzzz 18Laoo 1Zzzz 1Laoo 1Zzzz 17Laoo 2Zzzz 5Laoo 1Zzzz 1Laoo 1Zzzz 7Laoo " ++
  "1Zzzz aLaoo 2Zzzz 4Laoo 20Zzzz 48Tibt 1Zzzz 24Tibt 4Zzzz 27Tibt 1Zzzz 24Tibt 1Zzzz fTibt " ++
  "1Zzzz 7Tibt 4Zyyy 2Tibt 25Zzzz a0Mymr 26Geor 1Zzzz 1Geor 5Zzzz 1Geor 2Zzzz 2bGeor 1Zyyy " ++
  "4Geor 100Hang 49Ethi 1Zzzz 4Ethi 2Zzzz 7Ethi 1Zzzz 1Ethi 1Zzzz 4Ethi 2Zzzz 29Ethi 1Zzzz " ++
  "4Ethi 2Zzzz 21Ethi 1Zzzz 4Ethi 2Zzzz 7Ethi 1Zzzz 1Ethi 1Zzzz 4Ethi 2Zzzz fEthi 1Zzzz " ++
  "39Ethi 1Zzzz 4Ethi 2Zzzz 43Ethi 2Zzzz 20Ethi 3Zzzz 1aEthi 6Zzzz 56Cher 2Zzzz 6Cher 2Zzzz " ++
  "280Cans 1dOgam 3Zzzz 4bRunr 3Zyyy bRunr 7Zzzz 16Tglg 9Zzzz 1Tglg 15Hano 2Zyyy 9Zzzz " ++
  "14Buhd cZzzz dTagb 1Zzzz 3Tagb 1Zzzz 2Tagb cZzzz 5eKhmr 2Zzzz aKhmr 6Zzzz aKhmr 6Zzzz " ++
  "2Mong 2Zyyy 1Mong 1Zyyy 14Mong 6Zzzz 59Mong 7Zzzz 2bMong 5Zzzz 46Cans aZzzz 1fLimb 1Zzzz " ++
  "cLimb 4Zzzz cLimb 4Zzzz 1Limb 3Zzzz cLimb 1eTale 2Zzzz 5Tale bZzzz 2cTalu 4Zzzz 1aTalu " ++
  "6Zzzz bTalu 3Zzzz 2Talu 20Khmr 1cBugi 2Zzzz 2Bugi 3fLana 1Zzzz 1dLana 2Zzzz bLana 6Zzzz " ++
  "aLana 6Zzzz eLana 2Zzzz 1fZinh 31Zzzz 4dBali 1Zzzz 32Bali 40Sund 34Batk 8Zzzz 4Batk " ++
  "38Lepc 3Zzzz fLepc 3Zzzz 3Lepc 30Olck bCyrl 5Zzzz 2bGeor 2Zzzz 3Geor 8Sund 8Zzzz 3Zinh " ++
  "1Zyyy dZinh 1Zyyy 7Zinh 4Zyyy 1Zinh 6Zyyy 1Zinh 3Zyyy 2Zinh 1Zyyy 5Zzzz 26Latn 5Grek " ++
  "1Cyrl 31Latn 5Grek 4Latn 5Grek dLatn 1Cyrl 46Latn 1Grek 40Zinh 100Latn 16Grek 2Zzzz 6Grek " ++
  "2Zzzz 26Grek 2Zzzz 6Grek 2Zzzz 8Grek 1Zzzz 1Grek 1Zzzz 1Grek 1Zzzz 1Grek 1Zzzz 1fGrek " ++
  "2Zzzz 35Grek 1Zzzz fGrek 1Zzzz eGrek 2Zzzz 6Grek 1Zzzz 13Grek 2Zzzz 3Grek 1Zzzz 9Grek " ++
  "1Zzzz cZyyy 2Zinh 57Zyyy 1Zzzz bZyyy 1Latn 2Zzzz bZyyy 1Latn fZyyy 1Zzzz dLatn 3Zzzz " ++
  "21Zyyy fZzzz 21Zinh fZzzz 26Zyyy 1Grek 3Zyyy 2Latn 6Zyyy 1Latn 1bZyyy 1Latn 11Zyyy 29Latn " ++
  "3Zyyy 4Zzzz 29aZyyy 16Zzzz bZyyy 15Zzzz 3a0Zyyy 100Brai 274Zyyy 2Zzzz 20Zyyy 1Zzzz 69Zyyy " ++
  "60Glag 20Latn 74Copt 5Zzzz 7Copt 26Geor 1Zzzz 1Geor 5Zzzz 1Geor 2Zzzz 38Tfng 7Zzzz 2Tfng " ++
  "eZzzz 1Tfng 17Ethi 9Zzzz 7Ethi 1Zzzz 7Ethi 1Zzzz 7Ethi 1Zzzz 7Ethi 1Zzzz 7Ethi 1Zzzz " ++
  "7Ethi 1Zzzz 7Ethi 1Zzzz 7Ethi 1Zzzz 20Cyrl 5eZyyy 22Zzzz 1aHani 1Zzzz 59Hani cZzzz d6Hani " ++
  "1aZzzz 15Zyyy 1Hani 1Zyyy 1Hani 19Zyyy 9Hani 4Zinh 2Hang 8Zyyy 4Hani 4Zyyy 1Zzzz 56Hira " ++
  "2Zzzz 2Zinh 2Zyyy 3Hira 1Zyyy 5aKana 2Zyyy 3Kana 5Zzzz 2bBopo 1Zzzz 5eHang 1Zzzz 10Zyyy " ++
  "20Bopo 26Zyyy 9Zzzz 1Zyyy 10Kana 1fHang 1Zzzz 40Zyyy 1fHang 51Zyyy 2fKana 1Zyyy 58Kana " ++
  "a8Zyyy 19c0Hani 40Zyyy 5200Hani 48dYiii 3Zzzz 37Yiii 9Zzzz 30Lisu 12cVaii 14Zzzz 60Cyrl " ++
  "58Bamu 8Zzzz 22Zyyy 66Latn 3Zyyy 43Latn 2Zzzz 2Latn 1Zzzz 1Latn 1Zzzz 8Latn 15Zzzz eLatn " ++
  "2dSylo 3Zzzz aZyyy 6Zzzz 38Phag 8Zzzz 46Saur 8Zzzz cSaur 6Zzzz 20Deva 2eKali 1Zyyy 1Kali " ++
  "24Rjng bZzzz 1Rjng 1dHang 3Zzzz 4eJava 1Zzzz 1Zyyy aJava 4Zzzz 2Java 1fMymr 1Zzzz 37Cham " ++
  "9Zzzz eCham 2Zzzz aCham 2Zzzz 4Cham 20Mymr 43Tavt 18Zzzz 5Tavt 17Mtei aZzzz 6Ethi 2Zzzz " ++
  "6Ethi 2Zzzz 6Ethi 9Zzzz 7Ethi 1Zzzz 7Ethi 1Zzzz 2bLatn 1Zyyy 9Latn 1Grek 4Latn 2Zyyy " ++
  "4Zzzz 50Cher 2eMtei 2Zzzz aMtei 6Zzzz 2ba4Hang cZzzz 17Hang 4Zzzz 31Hang 2104Zzzz 16eHani " ++
  "2Zzzz 6aHani 26Zzzz 7Latn cZzzz 5Armn 5Zzzz 1aHebr 1Zzzz 5Hebr 1Zzzz 1Hebr 1Zzzz 2Hebr " ++
  "1Zzzz 2Hebr 1Zzzz aHebr 73Arab 10Zzzz 16bArab 2Zyyy 50Arab 2Zzzz 36Arab 7Zzzz 1Arab " ++
  "20Zzzz 10Arab 10Zinh aZyyy 6Zzzz eZinh 2Cyrl 23Zyyy 1Zzzz 13Zyyy 1Zzzz 4Zyyy 4Zzzz 5Arab " ++
  "1Zzzz 87Arab 2Zzzz 1Zyyy 1Zzzz 20Zyyy 1aLatn 6Zyyy 1aLatn bZyyy aKana 1Zyyy 2dKana 2Zyyy " ++
  "1fHang 3Zzzz 6Hang 2Zzzz 6Hang 2Zzzz 6Hang 2Zzzz 3Hang 3Zzzz 7Zyyy 1Zzzz 7Zyyy aZzzz " ++
  "5Zyyy 2Zzzz cLinb 1Zzzz 1aLinb 1Zzzz 13Linb 1Zzzz 2Linb 1Zzzz fLinb 2Zzzz eLinb 22Zzzz " ++
  "7bLinb 5Zzzz 3Zyyy 4Zzzz 2dZyyy 3Zzzz 9Zyyy 4fGrek 1Zzzz dZyyy 3Zzzz 1Grek 2fZzzz 2dZyyy " ++
  "1Zinh 82Zzzz 1dLyci 3Zzzz 31Cari fZzzz 1Zinh 1bZyyy 4Zzzz 24Ital 9Zzzz 3Ital 1bGoth 5Zzzz " ++
  "2bPerm 5Zzzz 1eUgar 1Zzzz 1Ugar 24Xpeo 4Zzzz eXpeo 2aZzzz 50Dsrt 30Shaw 1eOsma 2Zzzz " ++
  "aOsma 6Zzzz 24Osge 4Zzzz 24Osge 4Zzzz 28Elba 8Zzzz 34Aghb bZzzz 1Aghb bVith 1Zzzz fVith " ++
  "1Zzzz 7Vith 1Zzzz 2Vith 1Zzzz bVith 1Zzzz fVith 1Zzzz 7Vith 1Zzzz 2Vith 3Zzzz 34Todr " ++
  "cZzzz 137Lina 9Zzzz 16Lina aZzzz 8Lina 18Zzzz 6Latn 1Zzzz 2aLatn 1Zzzz 9Latn 45Zzzz 6Cprt " ++
  "2Zzzz 1Cprt 1Zzzz 2cCprt 1Zzzz 2Cprt 3Zzzz 1Cprt 2Zzzz 1Cprt 16Armi 1Zzzz 9Armi 20Palm " ++
  "1fNbat 8Zzzz 9Nbat 30Zzzz 13Hatr 1Zzzz 2Hatr 5Zzzz 5Hatr 1cPhnx 3Zzzz 1Phnx 1aLydi 5Zzzz " ++
  "1Lydi 40Zzzz 20Mero 18Merc 4Zzzz 14Merc 2Zzzz 2eMerc 4Khar 1Zzzz 2Khar 5Zzzz 8Khar 1Zzzz " ++
  "3Khar 1Zzzz 1dKhar 2Zzzz 3Khar 4Zzzz aKhar 7Zzzz 9Khar 7Zzzz 20Sarb 20Narb 20Zzzz 27Mani " ++
  "4Zzzz cMani 9Zzzz 36Avst 3Zzzz 7Avst 16Prti 2Zzzz 8Prti 13Phli 5Zzzz 8Phli 12Phlp 7Zzzz " ++
  "4Phlp cZzzz 7Phlp 50Zzzz 49Orkh 37Zzzz 33Hung dZzzz 33Hung 7Zzzz 6Hung 28Rohg 8Zzzz aRohg " ++
  "6Zzzz 26Gara 3Zzzz 1dGara 8Zzzz 2Gara d0Zzzz 1fArab 1Zzzz 2aYezi 1Zzzz 3Yezi 2Zzzz 2Yezi " ++
  "10Zzzz 3Arab 37Zzzz 4Arab 28Sogo 8Zzzz 2aSogd 16Zzzz 1aOugr 26Zzzz 1cChrs 14Zzzz 17Elym " ++
  "9Zzzz 4eBrah 4Zzzz 24Brah 9Zzzz 1Brah 43Kthi aZzzz 1Kthi 2Zzzz 19Sora 7Zzzz aSora 6Zzzz " ++
  "35Cakm 1Zzzz 12Cakm 8Zzzz 27Mahj 9Zzzz 60Shrd 1Zzzz 14Sinh bZzzz 12Khoj 1Zzzz 2fKhoj " ++
  "3eZzzz 7Mult 1Zzzz 1Mult 1Zzzz 4Mult 1Zzzz fMult 1Zzzz bMult 6Zzzz 3bSind 5Zzzz aSind " ++
  "6Zzzz 4Gran 1Zzzz 8Gran 2Zzzz 2Gran 2Zzzz 16Gran 1Zzzz 7Gran 1Zzzz 2Gran 1Zzzz 5Gran " ++
  "1Zzzz 1Zinh 9Gran 2Zzzz 2Gran 2Zzzz 3Gran 2Zzzz 1Gran 6Zzzz 1Gran 5Zzzz 7Gran 2Zzzz 7Gran " ++
  "3Zzzz 5Gran bZzzz aTutg 1Zzzz 1Tutg 2Zzzz 1Tutg 1Zzzz 26Tutg 1Zzzz aTutg 1Zzzz 1Tutg " ++
  "2Zzzz 1Tutg 1Zzzz 4Tutg 1Zzzz aTutg 1Zzzz 2Tutg 8Zzzz 2Tutg 1dZzzz 5cNewa 1Zzzz 5Newa " ++
  "1eZzzz 48Tirh 8Zzzz aTirh a6Zzzz 36Sidd 2Zzzz 26Sidd 22Zzzz 45Modi bZzzz aModi 6Zzzz " ++
  "dMong 13Zzzz 3aTakr 6Zzzz aTakr 6Zzzz 14Mymr 1cZzzz 1bAhom 2Zzzz fAhom 4Zzzz 17Ahom " ++
  "b9Zzzz 3cDogr 64Zzzz 53Wara cZzzz 1Wara 7Diak 2Zzzz 1Diak 2Zzzz 8Diak 1Zzzz 2Diak 1Zzzz " ++
  "1eDiak 1Zzzz 2Diak 2Zzzz cDiak 9Zzzz aDiak 46Zzzz 8Nand 2Zzzz 2eNand 2Zzzz bNand 1bZzzz " ++
  "48Zanb 8Zzzz 53Soyo dZzzz 10Cans 39Pauc 7Zzzz aDeva b6Zzzz 22Sunu eZzzz aSunu 6Zzzz 9Bhks " ++
  "1Zzzz 2dBhks 1Zzzz eBhks aZzzz 1dBhks 3Zzzz 20Marc 2Zzzz 16Marc 1Zzzz eMarc 49Zzzz 7Gonm " ++
  "1Zzzz 2Gonm 1Zzzz 2cGonm 3Zzzz 1Gonm 1Zzzz 2Gonm 1Zzzz 9Gonm 8Zzzz aGonm 6Zzzz 6Gong " ++
  "1Zzzz 2Gong 1Zzzz 25Gong 1Zzzz 2Gong 1Zzzz 6Gong 7Zzzz aGong 136Zzzz 19Maka 7Zzzz 11Kawi " ++
  "1Zzzz 29Kawi 3Zzzz 1dKawi 55Zzzz 1Lisu fZzzz 32Taml dZzzz 1Taml 39aXsux 66Zzzz 6fXsux " ++
  "1Zzzz 5Xsux bZzzz c4Xsux a4cZzzz 63Cpmn dZzzz 456Egyp aZzzz f9bEgyp 5Zzzz 247Hluw " ++
  "1ab9Zzzz 3aGukh 6c6Zzzz 239Bamu 7Zzzz 1fMroo 1Zzzz aMroo 4Zzzz 2Mroo 4fTnsa 1Zzzz aTnsa " ++
  "6Zzzz 1eBass 2Zzzz 6Bass aZzzz 46Hmng aZzzz aHmng 1Zzzz 7Hmng 1Zzzz 15Hmng 5Zzzz 13Hmng " ++
  "1b0Zzzz 3aKrai c6Zzzz 5bMedf 65Zzzz 4bPlrd 4Zzzz 39Plrd 7Zzzz 11Plrd 40Zzzz 1Tang 1Nshu " ++
  "2Hani 1Kits bZzzz 2Hani eZzzz 17f8Tang 8Zzzz 300Tang 1d6Kits 29Zzzz 1Kits 9Tang 22e7Zzzz " ++
  "4Kana 1Zzzz 7Kana 1Zzzz 2Kana 1Zzzz 1Kana 11fHira 3Kana fZzzz 1Hira 1dZzzz 3Hira 2Zzzz " ++
  "1Kana eZzzz 4Kana 8Zzzz 18cNshu 904Zzzz 6bDupl 5Zzzz dDupl 3Zzzz 9Dupl 7Zzzz aDupl 2Zzzz " ++
  "4Dupl 4Zyyy f5cZzzz faZyyy 6Zzzz 1b4Zyyy 4cZzzz 2eZinh 2Zzzz 17Zinh 9Zzzz 74Zyyy 3cZzzz " ++
  "f6Zyyy aZzzz 27Zyyy 2Zzzz 3eZyyy 3Zinh 11Zyyy 8Zinh 2Zyyy 7Zinh 1eZyyy 4Zinh 3dZyyy " ++
  "15Zzzz 46Grek 7aZzzz 14Zyyy cZzzz 14Zyyy cZzzz 57Zyyy 9Zzzz 19Zyyy 87Zzzz 55Zyyy 1Zzzz " ++
  "47Zyyy 1Zzzz 2Zyyy 2Zzzz 1Zyyy 2Zzzz 2Zyyy 2Zzzz 4Zyyy 1Zzzz cZyyy 1Zzzz 1Zyyy 1Zzzz " ++
  "7Zyyy 1Zzzz 41Zyyy 1Zzzz 4Zyyy 2Zzzz 8Zyyy 1Zzzz 7Zyyy 1Zzzz 1cZyyy 1Zzzz 4Zyyy 1Zzzz " ++
  "5Zyyy 1Zzzz 1Zyyy 3Zzzz 7Zyyy 1Zzzz 154Zyyy 2Zzzz 124Zyyy 2Zzzz 32Zyyy 28cSgnw fZzzz " ++
  "5Sgnw 1Zzzz fSgnw 450Zzzz 1fLatn 6Zzzz 6Latn d5Zzzz 7Glag 1Zzzz 11Glag 2Zzzz 7Glag 1Zzzz " ++
  "2Glag 1Zzzz 5Glag 5Zzzz 3eCyrl 21Zzzz 1Cyrl 70Zzzz 2dHmnp 3Zzzz eHmnp 2Zzzz aHmnp 4Zzzz " ++
  "2Hmnp 140Zzzz 1fToto 11Zzzz 3aWcho 5Zzzz 1Wcho 1d0Zzzz 2aNagm d6Zzzz 2bOnao 4Zzzz 1Onao " ++
  "1e0Zzzz 7Ethi 1Zzzz 4Ethi 1Zzzz 2Ethi 1Zzzz fEthi 1Zzzz c5Mend 2Zzzz 10Mend 29Zzzz 4cAdlm " ++
  "4Zzzz aAdlm 4Zzzz 2Adlm 311Zzzz 44Zyyy 4cZzzz 3dZyyy c2Zzzz 4Arab 1Zzzz 1bArab 1Zzzz " ++
  "2Arab 1Zzzz 1Arab 2Zzzz 1Arab 1Zzzz aArab 1Zzzz 4Arab 1Zzzz 1Arab 1Zzzz 1Arab 6Zzzz 1Arab " ++
  "4Zzzz 1Arab 1Zzzz 1Arab 1Zzzz 1Arab 1Zzzz 3Arab 1Zzzz 2Arab 1Zzzz 1Arab 2Zzzz 1Arab 1Zzzz " ++
  "1Arab 1Zzzz 1Arab 1Zzzz 1Arab 1Zzzz 1Arab 1Zzzz 2Arab 1Zzzz 1Arab 2Zzzz 4Arab 1Zzzz 7Arab " ++
  "1Zzzz 4Arab 1Zzzz 4Arab 1Zzzz 1Arab 1Zzzz aArab 1Zzzz 11Arab 5Zzzz 3Arab 1Zzzz 5Arab " ++
  "1Zzzz 11Arab 34Zzzz 2Arab 10eZzzz 2cZyyy 4Zzzz 64Zyyy cZzzz fZyyy 2Zzzz fZyyy 1Zzzz fZyyy " ++
  "1Zzzz 25Zyyy aZzzz aeZyyy 38Zzzz 1aZyyy 1Hira 2Zyyy dZzzz 2cZyyy 4Zzzz 9Zyyy 7Zzzz 2Zyyy " ++
  "eZzzz 6Zyyy 9aZzzz 3d8Zyyy 4Zzzz 11Zyyy 3Zzzz dZyyy 3Zzzz 77Zyyy 4Zzzz 5fZyyy 6Zzzz cZyyy " ++
  "4Zzzz 1Zyyy fZzzz cZyyy 4Zzzz 38Zyyy 8Zzzz aZyyy 6Zzzz 28Zyyy 8Zzzz 1eZyyy 2Zzzz cZyyy " ++
  "4Zzzz 2Zyyy 3eZzzz 154Zyyy cZzzz eZyyy 2Zzzz dZyyy 3Zzzz aZyyy 5Zzzz 38Zyyy 7Zzzz fZyyy " ++
  "2Zzzz bZyyy 6Zzzz 9Zyyy 7Zzzz 93Zyyy 1Zzzz 66Zyyy 406Zzzz a6e0Hani 20Zzzz 103aHani 6Zzzz " ++
  "deHani 2Zzzz 1682Hani eZzzz 1d31Hani fZzzz 26eHani 9a2Zzzz 21eHani 5e2Zzzz 134bHani 5Zzzz " ++
  "1060Hani adc51Zzzz 1Zyyy 1eZzzz 60Zyyy 80Zzzz f0Zinh 2fe10Zzzz "

/-- The table of `written`. -/
def table : RangeTable String := RangeTable.read String.ofList written

/-- The code points that are used with other scripts than their own, or with several: the codes of
the scripts, parted by slashes, a colon, and ranges parted by commas. -/
def writtenExtensions : String :=
  "Avst/Cari/Copt/Dupl/Elba/Geor/Glag/Gong/Goth/Grek/Hani/Latn/Lydi/Mahj/Perm/Shaw:b7 " ++
  "Beng/Cyrl/Deva/Latn/Lisu/Thai/Toto:2bc Bopo/Latn:2c7,2c9-2cb,2d9 Latn/Lisu:2cd " ++
  "Latn/Thai:2d7 Cher/Copt/Cyrl/Grek/Latn/Perm/Sunu/Tale:300 " ++
  "Cher/Cyrl/Grek/Latn/Osge/Sunu/Tale/Todr:301 Cher/Cyrl/Latn/Tfng:302 " ++
  "Glag/Latn/Sunu/Syrc/Thai:303 Aghb/Cher/Copt/Cyrl/Goth/Grek/Latn/Osge/Syrc/Tfng/Todr:304 " ++
  "Copt/Elba/Glag/Goth/Kana/Latn:305 Cyrl/Grek/Latn/Perm/Tfng:306 " ++
  "Copt/Dupl/Hebr/Latn/Perm/Syrc/Tale/Tfng/Todr:307 " ++
  "Armn/Cyrl/Dupl/Goth/Grek/Hebr/Latn/Perm/Syrc/Tale/Tfng:308 Latn/Tfng:309 " ++
  "Dupl/Latn/Syrc:30a Cher/Cyrl/Latn/Osge:30b Cher/Latn/Tale:30c Latn/Sunu:30d,310 " ++
  "Ethi/Latn:30e Cyrl/Latn/Todr:311 Grek/Latn/Perm/Todr:313 " ++
  "Cher/Dupl/Kana/Latn/Syrc/Tfng:323 Cher/Dupl/Latn/Syrc:324 Latn/Syrc:325,32e " ++
  "Latn/Sunu/Syrc:32d Cher/Latn/Syrc:330 Aghb/Cher/Goth/Latn/Sunu/Syrc/Thai:331 " ++
  "Grek:342,345,1dc0-1dc1 Latn/Osge:358 Aghb/Latn/Todr:35e Latn:363-36f Copt/Grek:374-375 " ++
  "Cyrl/Perm:483 Cyrl/Glag:484,487,2e43,a66f Cyrl/Latn:485-486 Armn/Geor/Glag:589 " ++
  "Arab/Gara/Nkoo/Rohg/Syrc/Thaa/Yezi:60c,61b Arab/Syrc/Thaa:61c " ++
  "Adlm/Arab/Gara/Nkoo/Rohg/Syrc/Thaa/Yezi:61f " ++
  "Adlm/Arab/Mand/Mani/Ougr/Phlp/Rohg/Sogd/Syrc:640 Arab/Syrc:64b-655,670 " ++
  "Arab/Thaa/Yezi:660-669 Arab/Rohg:6d4 " ++
  "Beng/Deva/Gran/Gujr/Guru/Knda/Latn/Mlym/Nand/Newa/Orya/Shrd/Taml/Telu/Tirh:951 " ++
  "Beng/Deva/Gran/Gujr/Guru/Knda/Latn/Mlym/Newa/Orya/Taml/Telu/Tirh:952 " ++
  "Beng/Deva/Dogr/Gong/Gonm/Gran/Gujr/Guru/Knda/Mahj/Mlym/Nand/Onao/Orya/Sind/Sinh/" ++
  "Sylo/Takr/Taml/Telu/Tirh:964 " ++
  "Beng/Deva/Dogr/Gong/Gonm/Gran/Gujr/Gukh/Guru/Knda/Limb/Mahj/Mlym/Nand/Onao/Orya/" ++
  "Sind/Sinh/Sylo/Takr/Taml/Telu/Tirh:965 Deva/Dogr/Kthi/Mahj:966-96f Beng/Cakm/Sylo:9e6-9ef " ++
  "Guru/Mult:a66-a6f Gujr/Khoj:ae6-aef " ++
  "Gran/Taml:be6-bf3,11301,11303,1133b-1133c,11fd0-11fd1,11fd3 Knda/Nand/Tutg:ce6-cef " ++
  "Cakm/Mymr/Tale:1040-1049 Geor/Glag/Latn:10fb Runr:16eb-16ed Buhd/Hano/Tagb/Tglg:1735-1736 " ++
  "Mong/Phag:1802-1803,1805 Beng/Deva/Gran/Knda:1cd0,1cd2 " ++
  "Deva:1cd1,1cd4,1cdb,1cde-1cdf,1ce3-1ce8,1cec,1cee-1cf1 Deva/Gran/Knda:1cd3 " ++
  "Beng/Deva/Newa/Telu/Tirh:1cd5 Beng/Deva/Telu:1cd6 Deva/Newa/Shrd:1cd7 " ++
  "Beng/Deva/Newa/Telu:1cd8 Deva/Shrd:1cd9,1cdc-1cdd,1ce0 Deva/Knda/Mlym/Orya/Taml/Telu:1cda " ++
  "Beng/Deva:1ce1,1cf5-1cf6 Deva/Newa/Tirh:1ce2 Deva/Nand/Newa:1ce9 Beng/Deva/Shrd:1cea " ++
  "Deva/Newa:1ceb Beng/Deva/Newa/Shrd:1ced " ++
  "Beng/Deva/Gran/Knda/Mlym/Nand/Orya/Sinh/Telu/Tirh/Tutg:1cf2 Deva/Gran:1cf3,1cf8-1cf9 " ++
  "Deva/Gran/Knda/Tutg:1cf4 Beng:1cf7 Nand:1cfa Cyrl/Latn/Syrc:1df8 Syrc:1dfa " ++
  "Latn/Mong/Phag:202f Adlm/Arab:204f Cari/Geor/Glag/Hung/Lyci/Orkh:205a " ++
  "Cari/Grek/Hung/Mero:205d Deva/Gran/Latn:20f0 Copt/Latn:2e17 Avst/Orkh:2e30 " ++
  "Avst/Cari/Geor/Hung/Kthi/Lydi/Samr:2e31 Dupl:2e3c,1bca0-1bca3 Adlm/Arab/Hung:2e41 " ++
  "Hani/Tang:2ff0-2fff,31ef Bopo/Hang/Hani/Hira/Kana/Mong/Yiii:3001 " ++
  "Bopo/Hang/Hani/Hira/Kana/Mong/Phag/Yiii:3002 " ++
  "Bopo/Hang/Hani/Hira/Kana:3003,3013,301c-301f,3030,3037,fe45-fe46 " ++
  "Hani:3006,303e-303f,3190-319f,31c0-31e5,3220-3247,3280-32b0,32c0-32cb,32ff,3358-" ++
  "3370,337b-337f,33e0-33fe,1d360-1d371,1f250-1f251 " ++
  "Bopo/Hang/Hani/Hira/Kana/Mong/Tibt/Yiii:3008-3009 " ++
  "Bopo/Hang/Hani/Hira/Kana/Lisu/Mong/Tibt/Yiii:300a-300b " ++
  "Bopo/Hang/Hani/Hira/Kana/Yiii:300c-3011,3014-301b,30fb,ff61-ff65 Bopo/Hani:302a-302d " ++
  "Hira/Kana:3031-3035,3099-309c,30a0,30fc,ff70,ff9e-ff9f Hani/Hira/Kana:303c-303d " ++
  "Hani/Latn:a700-a707 " ++
  "Deva/Dogr/Gujr/Guru/Khoj/Knda/Kthi/Mahj/Mlym/Modi/Nand/Shrd/Sind/Takr/Tirh/Tutg:a830-a832 " ++
  "Deva/Dogr/Gujr/Guru/Khoj/Knda/Kthi/Mahj/Modi/Nand/Shrd/Sind/Takr/Tirh/Tutg:a833-a835 " ++
  "Deva/Dogr/Gujr/Guru/Khoj/Kthi/Mahj/Modi/Sind/Takr/Tirh:a836-a837,a839 " ++
  "Deva/Dogr/Gujr/Guru/Khoj/Kthi/Mahj/Modi/Shrd/Sind/Takr/Tirh:a838 Beng/Deva/Tutg:a8f1 " ++
  "Deva/Taml:a8f3 Kali/Latn/Mymr:a92e Bugi/Java:a9cf Arab/Nkoo:fd3e-fd3f Arab/Thaa:fdf2,fdfd " ++
  "Cpmn/Cprt/Linb:10100-10101 Cprt/Linb:10102,10137-1013f Cprt/Lina/Linb:10107-10133 " ++
  "Arab/Copt:102e0-102fb Mani/Ougr:10af2 "

/-- The names of the scripts: the code, then the long name and further names, parted by slashes. -/
def writtenNames : String :=
  "Adlm/Adlam Ahom/Ahom Hluw/Anatolian_Hieroglyphs Arab/Arabic Armn/Armenian Avst/Avestan " ++
  "Bali/Balinese Bamu/Bamum Bass/Bassa_Vah Batk/Batak Beng/Bengali Bhks/Bhaiksuki " ++
  "Bopo/Bopomofo Brah/Brahmi Brai/Braille Bugi/Buginese Buhd/Buhid Cans/Canadian_Aboriginal " ++
  "Cari/Carian Aghb/Caucasian_Albanian Cakm/Chakma Cham/Cham Cher/Cherokee Chrs/Chorasmian " ++
  "Zyyy/Common Copt/Coptic/Qaac Xsux/Cuneiform Cprt/Cypriot Cpmn/Cypro_Minoan Cyrl/Cyrillic " ++
  "Dsrt/Deseret Deva/Devanagari Diak/Dives_Akuru Dogr/Dogra Dupl/Duployan " ++
  "Egyp/Egyptian_Hieroglyphs Elba/Elbasan Elym/Elymaic Ethi/Ethiopic Gara/Garay " ++
  "Geor/Georgian Glag/Glagolitic Goth/Gothic Gran/Grantha Grek/Greek Gujr/Gujarati " ++
  "Gong/Gunjala_Gondi Guru/Gurmukhi Gukh/Gurung_Khema Hani/Han Hang/Hangul " ++
  "Rohg/Hanifi_Rohingya Hano/Hanunoo Hatr/Hatran Hebr/Hebrew Hira/Hiragana " ++
  "Armi/Imperial_Aramaic Zinh/Inherited/Qaai Phli/Inscriptional_Pahlavi " ++
  "Prti/Inscriptional_Parthian Java/Javanese Kthi/Kaithi Knda/Kannada Kana/Katakana " ++
  "Kawi/Kawi Kali/Kayah_Li Khar/Kharoshthi Kits/Khitan_Small_Script Khmr/Khmer Khoj/Khojki " ++
  "Sind/Khudawadi Krai/Kirat_Rai Laoo/Lao Latn/Latin Lepc/Lepcha Limb/Limbu Lina/Linear_A " ++
  "Linb/Linear_B Lisu/Lisu Lyci/Lycian Lydi/Lydian Mahj/Mahajani Maka/Makasar Mlym/Malayalam " ++
  "Mand/Mandaic Mani/Manichaean Marc/Marchen Gonm/Masaram_Gondi Medf/Medefaidrin " ++
  "Mtei/Meetei_Mayek Mend/Mende_Kikakui Merc/Meroitic_Cursive Mero/Meroitic_Hieroglyphs " ++
  "Plrd/Miao Modi/Modi Mong/Mongolian Mroo/Mro Mult/Multani Mymr/Myanmar Nbat/Nabataean " ++
  "Nagm/Nag_Mundari Nand/Nandinagari Talu/New_Tai_Lue Newa/Newa Nkoo/Nko Nshu/Nushu " ++
  "Hmnp/Nyiakeng_Puachue_Hmong Ogam/Ogham Olck/Ol_Chiki Onao/Ol_Onal Hung/Old_Hungarian " ++
  "Ital/Old_Italic Narb/Old_North_Arabian Perm/Old_Permic Xpeo/Old_Persian Sogo/Old_Sogdian " ++
  "Sarb/Old_South_Arabian Orkh/Old_Turkic Ougr/Old_Uyghur Orya/Oriya Osge/Osage Osma/Osmanya " ++
  "Hmng/Pahawh_Hmong Palm/Palmyrene Pauc/Pau_Cin_Hau Phag/Phags_Pa Phnx/Phoenician " ++
  "Phlp/Psalter_Pahlavi Rjng/Rejang Runr/Runic Samr/Samaritan Saur/Saurashtra Shrd/Sharada " ++
  "Shaw/Shavian Sidd/Siddham Sgnw/SignWriting Sinh/Sinhala Sogd/Sogdian Sora/Sora_Sompeng " ++
  "Soyo/Soyombo Sund/Sundanese Sunu/Sunuwar Sylo/Syloti_Nagri Syrc/Syriac Tglg/Tagalog " ++
  "Tagb/Tagbanwa Tale/Tai_Le Lana/Tai_Tham Tavt/Tai_Viet Takr/Takri Taml/Tamil Tnsa/Tangsa " ++
  "Tang/Tangut Telu/Telugu Thaa/Thaana Thai/Thai Tibt/Tibetan Tfng/Tifinagh Tirh/Tirhuta " ++
  "Todr/Todhri Toto/Toto Tutg/Tulu_Tigalari Ugar/Ugaritic Vaii/Vai Vith/Vithkuqi Wcho/Wancho " ++
  "Wara/Warang_Citi Yezi/Yezidi Yiii/Yi Zanb/Zanabazar_Square "

/-- The parts of a text between separators. -/
def splitAt (separator : Char) (cs : List Char) : List (List Char) :=
  cs.foldr (fun c parts =>
    if c = separator then [] :: parts
    else match parts with
      | [] => [[c]]
      | part :: parts => (c :: part) :: parts) [[]]

/-- The strings between separators. -/
def parts (separator : Char) (s : String) : List String :=
  (splitAt separator s.toList).map String.ofList

/-- The entry of `writtenExtensions` that a text writes. -/
def extension (entry : String) : List String × CharSet :=
  match parts ':' entry with
  | [codes, ranges] => (parts '/' codes, CharSet.unions ((parts ',' ranges).map fun r =>
      CharSet.read (r ++ " ")))
  | _ => ([], .empty)

/-- The code points that are used with several scripts, and with which. -/
def extensions : List (List String × CharSet) :=
  ((parts ' ' writtenExtensions).filter (· ≠ "")).map extension

/-- The code of every script with its names. -/
def names : List (String × List String) :=
  ((parts ' ' writtenNames).filter (· ≠ "")).map fun entry =>
    let names := parts '/' entry
    (names.headD "", names)

/-- The code points of a script. -/
def members (code : String) : CharSet := table.setWhere (· == code)

/-- The code points that are used with a script. -/
def users (code : String) : CharSet :=
  let own := (members code).diff (CharSet.unions (extensions.map (·.2)))
  CharSet.unions (own :: (extensions.filter (·.1.contains code)).map (·.2))

end Script

end CodeMarkup.Text
